import JsonTemplate.Template.Basic
import JsonTemplate.Proofs.Grammar.Phrase
import JsonTemplate.Proofs.Grammar.Reading
import JsonTemplate.Proofs.Grammar.Spelling
import JsonTemplate.Proofs.Grammar.Soundness
import JsonTemplate.Proofs.Grammar.Extents
import JsonTemplate.Proofs.Grammar.Completeness
import JsonTemplate.Proofs.Grammar.Acceptance
import JsonTemplate.Proofs.Grammar.Invariants
import JsonTemplate.Proofs.Grammar.Faults
import JsonTemplate.Proofs.Grammar.Termination
import JsonTemplate.Proofs.Grammar.Detection
import JsonTemplate.Proofs.Grammar.Levels
import JsonTemplate.Proofs.Evaluation.Errors
import JsonTemplate.Proofs.Evaluation.Steps
import JsonTemplate.Proofs.Evaluation.Visits
import JsonTemplate.Proofs.Evaluation.Safety
import JsonTemplate.Proofs.Evaluation.Names
import JsonTemplate.Proofs.Evaluation.Height
import JsonTemplate.Proofs.Grammar.Depth
import JsonTemplate.Proofs.Template.Scoping
import JsonTemplate.Proofs.Template.Building
import JsonTemplate.Proofs.Template.MarkerText
import JsonTemplate.Proofs.Template.Static
import JsonTemplate.Proofs.Template.WellFormed
import JsonTemplate.Proofs.Lexing.Partition
import JsonTemplate.Proofs.Lexing.Rendering
import JsonTemplate.Proofs.Lexing.Numbers
import JsonTemplate.Proofs.Fields
import JsonTemplate.Proofs.Reports
import JsonTemplate.Proofs.Compilation
import JsonTemplate.Proofs.Layout
import JsonTemplate.Proofs.Spans
import JsonTemplate.Proofs.Sentences
import JsonTemplate.Proofs.Lexing.Bounds
import JsonTemplate.Proofs.Diagnostics
import JsonTemplate.Proofs.Template.Interpretation
import JsonTemplate.Proofs.Template.Agreement
import JsonTemplate.Proofs.Template.Refusals
import JsonTemplate.Proofs.Template.Failures
import JsonTemplate.Proofs.Template.Globals
import JsonTemplate.Proofs.Template.Spellings
import JsonTemplate.Proofs.FieldNames
import JsonTemplate.Proofs.Template.Delimiters
import JsonTemplate.Proofs.Text.ByteOrder
import JsonTemplate.Proofs.Template.Preference
import JsonTemplate.Proofs.Template.Substitution
import JsonTemplate.Proofs.Template.Variables
import JsonTemplate.Proofs.Template.Conditions
import JsonTemplate.Proofs.Template.Passes
import JsonTemplate.Proofs.Evaluation.Exactness
import JsonTemplate.Proofs.Comparison
import JsonTemplate.Proofs.Equality
import JsonTemplate.Proofs.Text.Splitting
import JsonTemplate.Proofs.Evaluation.Joining
import JsonTemplate.Proofs.Evaluation.Indexing
import JsonTemplate.Proofs.Template.Constants
import JsonTemplate.Proofs.Counts
import JsonTemplate.Proofs.Lexing.Recovery
