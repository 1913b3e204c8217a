import JsonTemplate.Proofs.Template.Interpretation
import JsonTemplate.Proofs.Template.Scoping
import JsonTemplate.Proofs.Template.WellFormed

/-! A template that was built from a document gives what the document means, in every context. The
programs of a text are kept under the texts of its markers, so that each marker finds its own. -/

namespace JsonTemplate

open Interpretation

variable {o : Options} {c : Context}

theorem Program.source_of_compile {source : String} {p : Program}
    (h : Program.compile o source = .ok p) : p.source = source := by
  unfold compile at h
  simp only at h
  split at h
  · cases h
  · split at h
    · cases h
    · split at h
      · cases h
      · cases h
        rfl

theorem expression_of_compile {source : String} {p : Program} (h : o.compile source = .ok p) :
    expression o source c = p.emit c := by
  rw [expression, h]
  rfl

/-! ### Texts -/

namespace TextTemplate

/-- The programs of the markers, compiled or not. -/
def compiled (o : Options) (markers : Fields Marker) : Fields (TemplateResult Program) :=
  markers.mapValues fun m => o.compile (String.ofList m.source)

theorem addPrograms_eq {ms : List Marker} {found : Fields Marker}
    {programs all : Fields Program} (hordered : found.Ordered)
    (hsame : ∀ m ∈ ms, ∀ m' ∈ ms, m.text = m'.text → m = m')
    (hfound : ∀ m ∈ ms, ∀ m', found.get? m.text = some m' → m' = m)
    (hprograms : compiled o found = programs.mapValues .ok)
    (h : addPrograms o ms programs = .ok all) :
    compiled o ((ms.map fun m => (m.text, m)).foldl (fun fs e => fs.insert e.1 e.2) found) =
      all.mapValues .ok := by
  induction ms generalizing found programs with
  | nil =>
    cases h
    exact hprograms
  | cons m rest ih =>
    have hrest : ∀ a ∈ rest, ∀ b ∈ rest, a.text = b.text → a = b := fun a ha b hb =>
      hsame a (List.mem_cons_of_mem m ha) b (List.mem_cons_of_mem m hb)
    have hget : (found.get? m.text).isSome = (programs.get? m.text).isSome := by
      have hboth := congrArg (Fields.get? m.text) hprograms
      rw [compiled, Fields.get?_mapValues, Fields.get?_mapValues] at hboth
      simpa using congrArg Option.isSome hboth
    rw [addPrograms] at h
    rw [List.map_cons, List.foldl_cons]
    by_cases hm : (programs.get? m.text).isSome
    · rw [if_pos hm] at h
      rw [hm] at hget
      obtain ⟨m', hm'⟩ := Option.isSome_iff_exists.1 hget
      cases hfound m List.mem_cons_self m' hm'
      rw [Fields.insert_of_get? hordered hm']
      exact ih hordered hrest (fun a ha => hfound a (List.mem_cons_of_mem m ha)) hprograms h
    · rw [if_neg hm] at h
      obtain ⟨p, hp, h⟩ := bind_eq_ok.1 h
      refine ih (Fields.ordered_insert hordered) hrest ?_ ?_ h
      · intro a ha m' hm'
        rw [Fields.get?_insert] at hm'
        split at hm'
        · next htext =>
          cases hm'
          exact (hsame a (List.mem_cons_of_mem m ha) m List.mem_cons_self htext).symm
        · exact hfound a (List.mem_cons_of_mem m ha) m' hm'
      · rw [compiled, Fields.mapValues_insert, ← compiled, hprograms, hp,
          Fields.mapValues_insert]

/-- Each of the markers has its program, in the order of their texts. -/
theorem compiled_distinctMarkers {s : String} {programs : Fields Program}
    (h : addPrograms o (markersOf s) [] = .ok programs) :
    compiled o (distinctMarkers s) = programs.mapValues .ok :=
  addPrograms_eq List.Pairwise.nil (fun _ hm _ hm' => Segment.eq_of_text hm hm') nofun rfl h

theorem get?_distinctMarkers {s : String} {m : Marker} (h : m ∈ markersOf s) :
    (distinctMarkers s).get? m.text = some m := by
  have hmem : (m.text, m) ∈ (markersOf s).map fun m => (m.text, m) := List.mem_map_of_mem h
  obtain ⟨m', hm'⟩ := Option.isSome_iff_exists.1 (Fields.isSome_get?_ofList hmem)
  obtain ⟨m'', hm'', heq⟩ := List.mem_map.1 (Fields.mem_of_get?_ofList hm')
  obtain ⟨htext, rfl⟩ := Prod.mk.inj heq
  rw [distinctMarkers, hm', Segment.eq_of_text hm'' h htext]

theorem mapM_cons_ok {α β : Type} {f : α → TemplateResult β} {a : α} {rest : List α} {b : β}
    (h : f a = .ok b) : (a :: rest).mapM f = (b :: ·) <$> rest.mapM f := by
  rw [List.mapM_cons, h]
  cases rest.mapM f <;> rfl

theorem mapM_cons_error {α β : Type} {f : α → TemplateResult β} {a : α} {rest : List α}
    {e : TemplateError} (h : f a = .error e) : (a :: rest).mapM f = .error e := by
  rw [List.mapM_cons, h]
  rfl

/-- The programs fail like the markers, or give the text of each marker. -/
theorem emitPrograms_of_mapM {found : Fields Marker} {programs : Fields Program}
    (h : compiled o found = programs.mapValues .ok) :
    match found.values.mapM (marked o c) with
    | .error e => emitPrograms c programs = .error e
    | .ok _ => ∃ texts, emitPrograms c programs = .ok texts ∧
      ∀ name m, found.get? name = some m →
        ∃ w, marked o c m = .ok w ∧ texts.get? name = some w.displayText := by
  induction found generalizing programs with
  | nil =>
    cases programs with
    | nil => exact ⟨[], rfl, nofun⟩
    | cons => cases h
  | cons entry rest ih =>
    obtain ⟨name, m⟩ := entry
    cases programs with
    | nil => cases h
    | cons head programs =>
      obtain ⟨name', p⟩ := head
      obtain ⟨hhead, hrest⟩ := List.cons.inj h
      obtain ⟨rfl, hp⟩ := Prod.mk.inj hhead
      have hmarked : marked o c m = p.emit c := expression_of_compile hp
      have hrest := ih hrest
      rw [emitPrograms, show Fields.values ((name, m) :: rest) = m :: Fields.values rest from rfl]
      cases hv : p.emit c with
      | error e =>
        rw [mapM_cons_error (hmarked.trans hv)]
        rfl
      | ok v =>
        rw [mapM_cons_ok (hmarked.trans hv)]
        cases hall : (Fields.values rest).mapM (marked o c) with
        | error e =>
          rw [hall] at hrest
          simp only [hrest]
          rfl
        | ok vs =>
          rw [hall] at hrest
          obtain ⟨texts, htexts, hget⟩ := hrest
          refine ⟨(name, v.displayText) :: texts, by rw [htexts]; rfl, ?_⟩
          intro other m' hm'
          rw [Fields.get?] at hm' ⊢
          split at hm'
          · cases hm'
            exact ⟨v, hmarked.trans hv, if_pos ‹_›⟩
          · rw [if_neg ‹_›]
            exact hget other m' hm'

end TextTemplate

theorem mapM_piece {segments : List Segment} {filler : Marker → List Char}
    (h : ∀ m ∈ Segment.markers segments,
      ∃ w, marked o c m = .ok w ∧ filler m = w.displayText.toList) :
    ∃ pieces, segments.mapM (piece o c) = .ok pieces ∧
      pieces.flatten = Segment.fill filler segments := by
  induction segments with
  | nil => exact ⟨[], rfl, rfl⟩
  | cons segment rest ih =>
    cases segment with
    | char ch =>
      obtain ⟨pieces, hpieces, hflatten⟩ := ih h
      refine ⟨[ch] :: pieces, ?_, congrArg (ch :: ·) hflatten⟩
      have hpiece : piece o c (.char ch) = .ok [ch] := rfl
      rw [TextTemplate.mapM_cons_ok hpiece, hpieces]
      rfl
    | marker m =>
      obtain ⟨w, hw, hfiller⟩ := h m List.mem_cons_self
      obtain ⟨pieces, hpieces, hflatten⟩ := ih fun a ha => h a (List.mem_cons_of_mem m ha)
      have hpiece : piece o c (.marker m) = .ok w.displayText.toList := by
        rw [piece, hw]
        rfl
      refine ⟨w.displayText.toList :: pieces, ?_, ?_⟩
      · rw [TextTemplate.mapM_cons_ok hpiece, hpieces]
        rfl
      · rw [List.flatten_cons, hflatten, ← hfiller]
        rfl

/-- Replacing the markers one after the other gives the text with all replaced at once. -/
theorem mapM_piece_ofText {text : String} {texts : Fields String}
    (h : ∀ m ∈ markersOf text,
      ∃ w, marked o c m = .ok w ∧ texts.get? m.text = some w.displayText) :
    ∃ pieces, (Segment.ofText text.toList).mapM (piece o c) = .ok pieces ∧
      TextTemplate.substitute text texts = String.ofList pieces.flatten := by
  refine (mapM_piece ?_).imp fun pieces hp => ⟨hp.1, congrArg String.ofList hp.2.symm⟩
  intro m hm
  obtain ⟨w, hw, htext⟩ := h m hm
  exact ⟨w, hw, by rw [htext]⟩

theorem Node.emit_ofText {s : String} {n : Node} (h : ofText o s = .ok n) :
    n.emit c = Interpretation.text o s c := by
  have hmarkers : Segment.markers (Segment.ofText s.toList) = markersOf s := rfl
  unfold ofText at h
  simp only at h
  unfold Interpretation.text
  split at h
  · next hnil =>
    cases h
    split
    · next m hsegments =>
      rw [hsegments] at hnil
      cases hnil
    · rw [if_pos hnil]
      rfl
  · next m segment hone hsegments =>
    obtain ⟨p, hp, h⟩ := bind_eq_ok.1 h
    cases h
    have hsegment : segment = .marker m := by
      rw [hsegments] at hone
      cases segment with
      | char => cases hone
      | marker m' =>
        cases hone
        rfl
    rw [hsegments, hsegment]
    simp only [marked, expression_of_compile hp]
    rfl
  · next hnil hone =>
    obtain ⟨programs, hprograms, h⟩ := bind_eq_ok.1 h
    cases h
    have hspec := TextTemplate.emitPrograms_of_mapM (c := c)
      (TextTemplate.compiled_distinctMarkers hprograms)
    change TextTemplate.emit ⟨s, programs⟩ c = _
    split
    · next m hsegments =>
      exact absurd hsegments (hone m (.marker m) (by rw [hsegments]; rfl))
    · rw [if_neg hnil, TextTemplate.emit]
      cases hall : (distinctMarkers s).values.mapM (marked o c) with
      | error e =>
        rw [hall] at hspec
        rw [hspec]
        rfl
      | ok vs =>
        rw [hall] at hspec
        obtain ⟨texts, htexts, hget⟩ := hspec
        obtain ⟨pieces, hpieces, htext⟩ := mapM_piece_ofText fun m hm =>
          hget m.text m (TextTemplate.get?_distinctMarkers hm)
        rw [htexts, hpieces]
        exact congrArg (fun text => Except.ok (Value.string text)) htext

/-! ### Controls -/

theorem Node.emit_toBlock (n : Node) : n.toBlock.emit c = n.emit c := by
  cases n with
  | static v => rw [toBlock, Block.emit, Node.emit]
  | block b => rw [toBlock, Node.emit]

namespace Block

theorem emit_ofCondition {text : String} {yes b : Block} {no : Option Block}
    (h : ofCondition o text yes no = .ok b) :
    b.emit c = (do if ← holds o text c then yes.emit c else emitBranch c no) := by
  obtain ⟨-, ⟨htrue, rfl⟩ | ⟨hfalse, rfl⟩ | ⟨hnone, p, hp, rfl⟩⟩ := ofCondition_eq_ok.1 h
  · rw [holds, htrue]
    rfl
  · rw [holds, hfalse]
    cases no with
    | none => exact Block.emit.eq_1 c .null
    | some no => rfl
  · rw [holds, hnone, Block.emit, expression_of_compile (compile_eq_ok.2 hp)]
    cases p.emit c <;> rfl

theorem emit_ofIteration {source : String} {names : LoopNames} {body b : Block}
    (h : ofIteration o source names body = .ok b) :
    b.emit c = (do
      let collection ← Interpretation.expression o (Text.trim source) c
      loop (Text.trim source) names (fun inside => body.emit inside) c collection) := by
  obtain ⟨-, p, hp, rfl⟩ := ofIteration_eq_ok.1 h
  have hbody : ∀ {c c'}, Context.AgreeOn body.freeNames c c' → body.emit c = body.emit c' :=
    fun h => emit_congr body h
  rw [Block.emit, expression_of_compile (compile_eq_ok.2 hp)]
  cases p.emit c with
  | error e => rfl
  | ok v =>
    cases v with
    | array items =>
      simp only [Context.passes_eq_mapM (Context.sets_bindItem names) hbody fun _ _ _ => rfl]
      rfl
    | object fields =>
      simp only [Context.passes_eq_mapM (Context.sets_bindEntry names) hbody fun _ _ _ => rfl]
      rfl
    | _ =>
      rw [← Program.source_of_compile hp]
      rfl

theorem emit_ofBinding {text : String} {body b : Block} (h : ofBinding o text body = .ok b) :
    b.emit c = match splitBinding? text.toList with
      | some (name, source) => do
        let bound ← Interpretation.expression o (String.ofList source) c
        body.emit (c.bind (String.ofList name) bound)
      | none => pure .null := by
  obtain ⟨name, source, p, hsplit, -, hp, rfl⟩ := ofBinding_eq_ok.1 h
  rw [Block.emit, hsplit]
  simp only [expression_of_compile (compile_eq_ok.2 hp)]

end Block

/-! ### Reading forms -/

namespace Interpretation

open Form

variable {fields rest : Fields Value} {marker : Value}

theorem textUnder?_eq_some {key text : String} :
    textUnder? fields key = some text ↔ TextAt fields key text := textAt_iff

theorem condition_of_form {text : String} {yes : Fields Value} {no : Option Value}
    (h : Conditional fields marker text yes no) :
    condition marker = text ∧ yesFields fields marker = yes ∧ fields.get? "$else" = no := by
  cases h with
  | short htext =>
    cases marker with
    | null | array | object => cases htext
    | bool | number | string =>
      cases htext
      exact ⟨rfl, rfl, rfl⟩
  | @structured inner text _ htext =>
    refine ⟨?_, rfl, rfl⟩
    rw [condition]
    cases htext with
    | first htext => rw [textUnder?_eq_some.2 htext, Option.some_or, Option.getD_some]
    | second hnone htext =>
      have hcond : textUnder? inner "$cond" = none := by
        rw [Option.eq_none_iff_forall_ne_some]
        intro t ht
        exact hnone t (textUnder?_eq_some.1 ht)
      rw [hcond, Option.none_or, textUnder?_eq_some.2 htext, Option.getD_some]

theorem bodyIn_of_form {body : Value} (h : Body rest body) : bodyIn rest = body := by
  unfold bodyIn
  cases h with
  | alone h =>
    rw [h]
    rfl
  | fields hnone =>
    rw [hnone]
    rfl

theorem nameUnder_of_form {key standard name : String} (h : NameAt rest key standard name) :
    nameUnder rest key standard = name := by
  unfold nameUnder
  cases h with
  | absent hnone => rw [hnone]
  | given htext => rw [htext.1]

theorem loop_of_form {source : String} {names : LoopNames} {body : Value}
    (h : Iteration fields marker source names body) :
    controlText marker = source ∧ loopNames marker = names ∧ loopBody fields marker = body := by
  cases h with
  | short hbody => exact ⟨rfl, rfl, bodyIn_of_form hbody⟩
  | structured _ hsource hindex hkey hitem hbody =>
    refine ⟨?_, ?_, bodyIn_of_form hbody⟩
    · rw [controlText, hsource.1]
      rfl
    · rw [loopNames, ← nameUnder_of_form hindex, ← nameUnder_of_form hkey,
        ← nameUnder_of_form hitem]
      rfl

theorem binding_of_form {text : String} {body : Value} (h : Binding fields marker text body) :
    controlText marker = text ∧ bindingBody fields marker = body := by
  cases h with
  | short hbody => exact ⟨rfl, bodyIn_of_form hbody⟩
  | structured _ htext hbody =>
    refine ⟨?_, bodyIn_of_form hbody⟩
    rw [controlText, htext.1]
    rfl

/-! ### The meaning of objects -/

theorem value_plain (hform : HasForm fields .plain) :
    value o (.object fields) c = (do pure (.object (← entries o fields c))) := by
  cases hform with
  | plain hif hiterate hwith =>
    rw [value]
    split
    · next hother => cases hif.symm.trans hother
    · split
      · next hother => cases hiterate.symm.trans hother
      · split
        · next hother => cases hwith.symm.trans hother
        · rfl

theorem value_conditional {text : String} {yes : Fields Value} {no : Option Value}
    (hform : HasForm fields (.conditional text yes no)) :
    value o (.object fields) c = (do
      if ← holds o text c then value o (.object yes) c
      else match no with
        | some no => value o no c
        | none => pure .null) := by
  cases hform with
  | @conditional marker _ _ _ hif hconditional =>
    obtain ⟨rfl, rfl, rfl⟩ := condition_of_form hconditional
    rw [value]
    split
    · next other hother =>
      cases hif.symm.trans hother
      congr 1
      funext b
      congr 1
      split <;> next h => rw [h]
    · next hother => cases hif.symm.trans hother

theorem value_iteration {source : String} {names : LoopNames} {body : Value}
    (hform : HasForm fields (.iteration source names body)) :
    value o (.object fields) c = (do
      let collection ← expression o (Text.trim source) c
      loop (Text.trim source) names (fun inside => value o body inside) c collection) := by
  cases hform with
  | iteration hif hiterate hiteration =>
    obtain ⟨rfl, rfl, rfl⟩ := loop_of_form hiteration
    rw [value]
    split
    · next hother => cases hif.symm.trans hother
    · split
      · next other hother =>
        cases hiterate.symm.trans hother
        rfl
      · next hother => cases hiterate.symm.trans hother

theorem value_binding {text : String} {body : Value}
    (hform : HasForm fields (.binding text body)) :
    value o (.object fields) c = match Block.splitBinding? text.toList with
      | some (name, source) => do
        let bound ← expression o (String.ofList source) c
        value o body (c.bind (String.ofList name) bound)
      | none => pure .null := by
  cases hform with
  | binding hif hiterate hwith hbinding =>
    obtain ⟨rfl, rfl⟩ := binding_of_form hbinding
    rw [value]
    split
    · next hother => cases hif.symm.trans hother
    · split
      · next hother => cases hiterate.symm.trans hother
      · split
        · next other hother =>
          cases hwith.symm.trans hother
          rfl
        · next hother => cases hwith.symm.trans hother

end Interpretation

/-! ### Whole documents -/

namespace Node

/-- The node gives the meaning of the value in every context. -/
def Means (o : Options) (n : Node) (v : Value) : Prop := ∀ c, n.emit c = value o v c

theorem emitItems_of_means {items : List Value} {nodes : List Node}
    (hmeans : ∀ v ∈ items, ∀ n, build o v = .ok n → n.Means o v)
    (h : buildItems o items = .ok nodes) : emitItems c nodes = Interpretation.items o items c := by
  induction buildItems_eq_ok.1 h with
  | nil => rw [emitItems, Interpretation.items]
  | @cons v n rest others hn hothers ih =>
    have hfirst := hmeans v List.mem_cons_self n hn c
    have hrest := ih (fun w hw => hmeans w (List.mem_cons_of_mem v hw)) (buildItems_eq_ok.2 hothers)
    rw [emitItems, Interpretation.items, hfirst, hrest]

theorem emitFields_of_means {fields : List (String × Value)} {nodes : List (String × Node)}
    (hmeans : ∀ entry ∈ fields, ∀ n, build o entry.2 = .ok n → n.Means o entry.2)
    (h : buildFields o fields = .ok nodes) :
    emitFields c nodes = Interpretation.entries o fields c := by
  induction buildFields_eq_ok.1 h with
  | nil => rw [emitFields, Interpretation.entries]
  | @cons entry node rest others hn hothers ih =>
    obtain ⟨name, v⟩ := entry
    obtain ⟨_, n⟩ := node
    obtain ⟨rfl, hn⟩ := hn
    have hfirst := hmeans _ List.mem_cons_self n hn c
    have hrest := ih (fun w hw => hmeans w (List.mem_cons_of_mem _ hw))
      (buildFields_eq_ok.2 hothers)
    rw [emitFields, Interpretation.entries, hfirst, hrest]

/-- Nodes without a block among them give the items themselves. -/
theorem emitItems_static {items : List Value} {nodes : List Node}
    (h : buildItems o items = .ok nodes) (hstatic : ¬nodes.any isBlock) :
    emitItems c nodes = .ok items := by
  induction buildItems_eq_ok.1 h with
  | nil => rw [emitItems]
  | @cons v n rest others hn hothers ih =>
    cases n with
    | block b => exact absurd rfl hstatic
    | static w =>
      cases eq_of_build_static hn
      rw [emitItems, ih (buildItems_eq_ok.2 hothers) hstatic, Node.emit]
      rfl

theorem emitFields_static {fields : List (String × Value)} {nodes : List (String × Node)}
    (h : buildFields o fields = .ok nodes) (hstatic : ¬nodes.any fun n => n.2.isBlock) :
    emitFields c nodes = .ok fields := by
  induction buildFields_eq_ok.1 h with
  | nil => rw [emitFields]
  | @cons entry node rest others hn hothers ih =>
    obtain ⟨name, v⟩ := entry
    obtain ⟨_, n⟩ := node
    obtain ⟨rfl, hn⟩ := hn
    cases n with
    | block b => exact absurd rfl hstatic
    | static w =>
      have hw : w = v := eq_of_build_static hn
      subst hw
      rw [emitFields, ih (buildFields_eq_ok.2 hothers) hstatic, Node.emit]
      rfl

/-- An array of nodes, collapsed or not, gives the array of what they give. -/
theorem emit_ofItems {items : List Value} {nodes : List Node}
    (h : buildItems o items = .ok nodes) :
    (ofItems items nodes).emit c = (do pure (.array (← emitItems c nodes))) := by
  unfold ofItems
  split
  · rw [Node.emit, Block.emit]
  · next hstatic =>
    rw [Node.emit, emitItems_static h hstatic]
    rfl

theorem emit_ofEntries {fields : Fields Value} {nodes : List (String × Node)}
    (h : buildFields o fields = .ok nodes) :
    (ofEntries fields nodes).emit c = (do pure (.object (← emitFields c nodes))) := by
  unfold ofEntries
  split
  · rw [Node.emit, Block.emit]
  · next hstatic =>
    rw [Node.emit, emitFields_static h hstatic]
    rfl

theorem means_of_build {v : Value} {n : Node} (h : build o v = .ok n) : n.Means o v := by
  induction hsize : v.size using Nat.strongRecOn generalizing v n with
  | ind size ih =>
    subst hsize
    intro c
    cases build_eq_ok.1 h with
    | null | bool | number =>
      rw [Node.emit, value]
      all_goals rintro _ ⟨⟩
    | string htext => rw [emit_ofText htext, value]
    | array hnodes =>
      rw [emit_ofItems hnodes, value, emitItems_of_means ?_ hnodes]
      intro v hv n hn
      exact ih _ (Value.size_lt_of_mem_items hv) hn rfl
    | plain hform hnodes =>
      rw [emit_ofEntries hnodes, value_plain hform, emitFields_of_means ?_ hnodes]
      intro entry hentry n hn
      exact ih _ (Value.size_lt_of_mem_fields hentry) hn rfl
    | @conditional fields yes text no yesNode noNode b hform hyes hno hb =>
      have hyesMeans := ih _ (Value.size_lt_of_hasForm hform List.mem_cons_self) hyes rfl c
      rw [Node.emit, Block.emit_ofCondition hb, value_conditional hform, emit_toBlock, hyesMeans]
      congr 1
      funext truth
      congr 1
      cases no with
      | none =>
        cases hno
        rfl
      | some no =>
        obtain ⟨n, hn, rfl⟩ := map_eq_ok.1 hno
        have hlt : no.size < _ :=
          Value.size_lt_of_hasForm hform (List.mem_cons_of_mem _ List.mem_cons_self)
        rw [Option.map_some, Block.emitBranch, emit_toBlock, ih _ hlt hn rfl c]
    | @iteration fields source names body bodyNode b hform hbody hb =>
      have hlt := Value.size_lt_of_hasForm hform List.mem_cons_self
      have hbodyMeans := ih _ hlt hbody rfl
      have hinside : (fun inside => bodyNode.toBlock.emit inside) =
          fun inside => value o body inside := by
        funext inside
        rw [emit_toBlock, hbodyMeans inside]
      rw [Node.emit, Block.emit_ofIteration hb, value_iteration hform, hinside]
    | @binding fields text body bodyNode b hform hbody hb =>
      have hlt := Value.size_lt_of_hasForm hform List.mem_cons_self
      have hbodyMeans := ih _ hlt hbody rfl
      rw [Node.emit, Block.emit_ofBinding hb, value_binding hform]
      congr 1
      funext name source
      congr 1
      funext bound
      rw [emit_toBlock, hbodyMeans]

end Node

/-- Filling in a template gives what its document means in the context, errors included. -/
theorem Template.process_eq_value {v : Value} {t : Template} (h : build o v = .ok t)
    (c : Context) : t.process c = Interpretation.value o v c := by
  obtain ⟨n, hn, h⟩ := bind_eq_ok.1 h
  cases h
  rw [process, Node.emit_toBlock, Node.means_of_build hn c]

/-- A loop with a text around each item. -/
theorem Template.process_eq_value_loop :
    let fields : Fields Value :=
      [("$body", .string "<\x7b\x7b item \x7d\x7d>"), ("$iterate", .string "xs")]
    ∃ t, build .empty (.object fields) = .ok t ∧
      ∀ c, t.process c = Interpretation.value .empty (.object fields) c := by
  intro fields
  have hmarkers : (markersOf "<\x7b\x7b item \x7d\x7d>").all fun m =>
      (Program.compile .empty (String.ofList m.source)).isOk := by decide +kernel
  have hbody : WellFormed .empty (.string "<\x7b\x7b item \x7d\x7d>") :=
    .string fun m hm => compiles_of_isOk (List.all_eq_true.1 hmarkers m hm)
  have hsource : Compiles .empty (Text.trim "xs") := compiles_of_isOk (by decide +kernel)
  have hform : Form.HasForm fields (.iteration "xs" .standard _) :=
    .iteration rfl rfl (.short (.alone rfl))
  obtain ⟨n, hn⟩ := exists_build_of_wellFormed
    (.iteration hform (by decide +kernel) hsource hbody)
  have ht : build .empty (.object fields) = .ok ⟨n.toBlock⟩ := bind_eq_ok.2 ⟨n, hn, rfl⟩
  exact ⟨_, ht, process_eq_value ht⟩

end JsonTemplate
