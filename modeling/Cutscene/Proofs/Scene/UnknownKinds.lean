import Cutscene.Proofs.Scene.Marking

/-!
# Bodies with operations of unknown kinds

If nothing in a body but its operations has a member `op`, then marking replaces the operations of
unknown kinds and nothing else. So a body is loaded operation by operation
(`Operation.LoadsAs`): one of an unknown kind is unsupported, whatever it holds, and every other is
read as it stands but for its inline operations, which are loaded in the same way. Nothing but a
malformed operation, outside of those of unknown kinds, keeps a body from being loaded
(`loaded_one_by_one`).
-/

namespace Cutscene

open Json

/-! ## Marking again -/

theorem unknownOpcode?_markMembers {members : List (String × Json)}
    (h : unknownOpcode? members = none) : unknownOpcode? (markMembers members) = none := by
  have hop : (Json.object (markMembers members)).member? "op" =
      ((Json.object members).member? "op").map markUnsupported := by
    rw [markMembers_eq_map, member?, member?, ← List.map_reverse, List.find?_map, Option.map_map,
      Option.map_map]
    rfl
  unfold unknownOpcode? at h ⊢
  rw [hop]
  generalize (Json.object members).member? "op" = found at h
  rcases found with _ | v
  · rfl
  · cases v with
    | string op => exact h
    | object others =>
        rw [Option.map_some, markUnsupported]
        cases unknownOpcode? others <;> rfl
    | _ => rfl

mutual

/-- Marking a marked value does nothing. -/
theorem markUnsupported_markUnsupported :
    (j : Json) → markUnsupported (markUnsupported j) = markUnsupported j
  | .null | .boolean _ | .integer _ | .real _ | .string _ => rfl
  | .array items => by
      rw [markUnsupported, markUnsupported, markItems_markItems items]
  | .object members => by
      rw [markUnsupported]
      cases hunknown : unknownOpcode? members with
      | some opcode => rfl
      | none =>
          simp only
          rw [markUnsupported, unknownOpcode?_markMembers hunknown]
          exact congrArg _ (markMembers_markMembers members)

theorem markItems_markItems : (items : List Json) → markItems (markItems items) = markItems items
  | [] => rfl
  | j :: rest => by
      rw [markItems, markItems, markUnsupported_markUnsupported j, markItems_markItems rest]

theorem markMembers_markMembers :
    (members : List (String × Json)) → markMembers (markMembers members) = markMembers members
  | [] => rfl
  | (name, j) :: rest => by
      rw [markMembers, markMembers, markUnsupported_markUnsupported j, markMembers_markMembers rest]

end

/-! ## Where there is no operation -/

/-- No object in the value has a member `op`. -/
inductive Json.Untagged : Json → Prop
  | plain {j : Json} (h : j.parts? = none) : Untagged j
  | array {items : List Json} (hitems : ∀ item ∈ items, Untagged item) : Untagged (.array items)
  | object {members : List (String × Json)} (hop : ∀ v, ("op", v) ∉ members)
      (hmembers : ∀ m ∈ members, Untagged m.2) : Untagged (.object members)

theorem Json.Untagged.mark {j : Json} (h : j.Untagged) : markUnsupported j = j := by
  induction h with
  | @plain j h =>
      cases j with
      | array items => cases h
      | object members => cases h
      | _ => rfl
  | @array items _ ih =>
      rw [markUnsupported, markItems_eq_map, List.map_congr_left ih, List.map_id']
  | @object members hop _ ih =>
      have hknown : unknownOpcode? members = none := by
        refine Option.eq_none_iff_forall_ne_some.2 fun opcode hopcode => ?_
        exact hop _ (mem_of_unknownOpcode? hopcode).1
      have hmembers : ∀ m ∈ members, (m.1, markUnsupported m.2) = m := fun m hm =>
        Prod.ext rfl (ih m hm)
      rw [markUnsupported, hknown, markMembers_eq_map, List.map_congr_left hmembers, List.map_id']

/-! ## The inline operations of an operation -/

namespace Json

/-- The items of the member `inline`. -/
def inlineItems? (j : Json) : Option (List Json) :=
  match j.member? "inline" with
  | some (.array items) => some items
  | _ => none

/-- An array with other items. -/
def onItems (f : List Json → List Json) : Json → Json
  | array items => array (f items)
  | other => other

/-- The members with other items in the member `inline`. -/
def onInlined (f : List Json → List Json) (members : List (String × Json)) :
    List (String × Json) :=
  members.map fun m => if m.1 = "inline" then (m.1, onItems f m.2) else m

/-- The object without the items of its member `inline`. -/
def emptied : Json → Json
  | object members => object (onInlined (fun _ => []) members)
  | other => other

section onInlined

variable (f : List Json → List Json) (members : List (String × Json))

theorem filter_onInlined {p : String → Bool} :
    (onInlined f members).filter (fun m => p m.1) =
      onInlined f (members.filter fun m => p m.1) := by
  induction members with
  | nil => rfl
  | cons m ms ih =>
      have hname : (if m.1 = "inline" then (m.1, onItems f m.2) else m).1 = m.1 := by
        split <;> rfl
      rw [onInlined, List.map_cons, List.filter_cons, List.filter_cons, hname]
      split
      · exact congrArg _ ih
      · exact ih

theorem onInlined_eq_self (h : ∀ m ∈ members, m.1 ≠ "inline") : onInlined f members = members := by
  have hsame : ∀ m ∈ members, (if m.1 = "inline" then (m.1, onItems f m.2) else m) = m :=
    fun m hm => if_neg (h m hm)
  rw [onInlined, List.map_congr_left hsame, List.map_id']

theorem filter_onInlined_of_ne {name : String} (h : name ≠ "inline") :
    (onInlined f members).filter (·.1 == name) = members.filter (·.1 == name) := by
  rw [filter_onInlined f members (p := (· == name))]
  refine onInlined_eq_self f _ fun m hm => ?_
  have hname : m.1 = name := by simpa using (List.mem_filter.1 hm).2
  rwa [hname]

theorem filter_onInlined_inline :
    (onInlined f members).filter (·.1 == "inline") =
      (members.filter (·.1 == "inline")).map fun m => (m.1, onItems f m.2) := by
  rw [filter_onInlined f members (p := (· == "inline")), onInlined]
  refine List.map_congr_left fun m hm => if_pos ?_
  simpa using (List.mem_filter.1 hm).2

/-- The one member of a name, if there is at most one. -/
def only? (members : List (String × Json)) (name : String) : Option (Option Json) :=
  match members.filter (·.1 == name) with
  | [] => some none
  | [m] => some (some m.2)
  | _ => none

theorem only?_onInlined_of_ne {name : String} (h : name ≠ "inline") :
    only? (onInlined f members) name = only? members name := by
  rw [only?, only?, filter_onInlined_of_ne f members h]

theorem fields?_eq_mapM (names : List String) :
    (Parts.named members).fields? names = names.mapM (only? members) := by
  rw [Parts.fields?]
  congr 1
  funext name
  unfold only?
  generalize members.filter (·.1 == name) = found
  rcases found with _ | ⟨m, _ | _⟩ <;> rfl

/-- Fields other than `inline` are not concerned. -/
theorem fields?_onInlined {names : List String} (h : "inline" ∉ names) :
    (Parts.named (onInlined f members)).fields? names = (Parts.named members).fields? names := by
  rw [fields?_eq_mapM, fields?_eq_mapM]
  induction names with
  | nil => rfl
  | cons name names ih =>
      rw [List.mem_cons, not_or] at h
      rw [List.mapM_cons, List.mapM_cons, ih h.2, only?_onInlined_of_ne f members (Ne.symm h.1)]

theorem only?_onInlined_inline :
    only? (onInlined f members) "inline" =
      (only? members "inline").map (Option.map (onItems f)) := by
  rw [only?, only?, filter_onInlined_inline]
  generalize members.filter (·.1 == "inline") = found
  rcases found with _ | ⟨m, _ | _⟩ <;> rfl

theorem only?_filter_ne {name tag : String} (h : name ≠ tag) :
    only? (members.filter (·.1 != tag)) name = only? members name := by
  have hfilter : (members.filter (·.1 != tag)).filter (·.1 == name) =
      members.filter (·.1 == name) := by
    rw [List.filter_filter]
    refine List.filter_congr fun m _ => ?_
    by_cases hname : m.1 = name
    · simp [hname, h]
    · simp [hname]
  rw [only?, only?, hfilter]

variable {members}

/-- The last member of a name is the only one. -/
theorem member?_of_only? {name : String} {field : Option Json}
    (h : only? members name = some field) : (object members).member? name = field := by
  have hlast : (members.reverse.find? (·.1 == name)) =
      ((members.filter (·.1 == name)).reverse.head?) := by
    rw [← List.filter_reverse, List.head?_filter]
  unfold only? at h
  rw [member?, hlast]
  generalize members.filter (·.1 == name) = found at h
  rcases found with _ | ⟨m, _ | _⟩
  · exact Option.some.inj h
  · exact Option.some.inj h
  · cases h

end onInlined

end Json

namespace Operation

theorem ofParts?_congr_of_ne {parts others : Parts Part}
    (h : ∀ names, "inline" ∉ names → parts.fields? names = others.fields? names) {opcode : String}
    (hne : opcode ≠ "flag_if") : ofParts? opcode parts = ofParts? opcode others := by
  unfold ofParts? say? flagged? fade? tileReplace?
  rw [if_neg hne, if_neg hne]
  simp only [h _ (show "inline" ∉ ["text", "expression", "interval_ms", "append"] by decide),
    h _ (show "inline" ∉ ["duration_ms"] by decide), h _ (show "inline" ∉ [] by decide),
    h _ (show "inline" ∉ ["first", "second"] by decide), h _ (show "inline" ∉ ["cue"] by decide),
    h _ (show "inline" ∉ ["flag"] by decide), h _ (show "inline" ∉ ["action"] by decide),
    h _ (show "inline" ∉ ["path", "door"] by decide), h _ (show "inline" ∉ ["opcode"] by decide),
    h _ (show "inline" ∉ ["layer", "from", "to", "atlas", "rotation"] by decide)]

/-- A call that depends on a flag, from its three fields. -/
def flagIfOf? (flag event : Option Json) (inlined : Option Part) : Option Operation := do
  let flag ← required? text? flag
  let event ← withDefault? none textOrNull? event
  let inlined ← withDefault? none Part.inlined? inlined
  some (.flagIf flag event inlined)

theorem flagIf?_named (members : List (String × Json)) :
    flagIf? ((Parts.named members).map Part.of) =
      (only? members "flag").bind fun flag => (only? members "event").bind fun event =>
        (only? members "inline").bind fun inlined =>
          flagIfOf? flag event (inlined.map Part.of) := by
  rw [flagIf?, Parts.fields?_map, fields?_eq_mapM, List.mapM_cons, List.mapM_cons,
    List.mapM_cons, List.mapM_nil]
  rcases only? members "flag" with _ | flag
  · rfl
  rcases only? members "event" with _ | event
  · rfl
  rcases only? members "inline" with _ | inlined
  · rfl
  simp [flagIfOf?]

/-- The operation with operations in the place of its inline ones, if its kind has such. -/
def refill (ops : Option (List Operation)) : Operation → Option Operation
  | flagIf flag event _ => ops.map fun ops => flagIf flag event (some ops)
  | op => some op

theorem flagIfOf?_array (flag event : Option Json) (items : List Json) :
    flagIfOf? flag event (some (Part.of (.array items))) =
      (flagIfOf? flag event (some (Part.of (.array [])))).bind
        (refill (readItems? true items)) := by
  unfold flagIfOf?
  rcases required? text? flag with _ | flag
  · rfl
  rcases withDefault? none textOrNull? event with _ | event
  · rfl
  have hitems : Part.inlined? (Part.of (.array items)) = (readItems? true items).map some := rfl
  rw [withDefault?, hitems]
  cases readItems? true items <;> rfl

/-- With other items in the member `inline` a call that depends on a flag has other inline
operations. -/
theorem flagIf?_onInlined_array (f : List Json → List Json) {members : List (String × Json)}
    {items : List Json}
    (hitems : ∀ field, only? members "inline" = some field → field = some (.array items)) :
    flagIf? ((Parts.named (onInlined f members)).map Part.of) =
      (flagIf? ((Parts.named (onInlined (fun _ => []) members)).map Part.of)).bind
        (refill (readItems? true (f items))) := by
  rw [flagIf?_named, flagIf?_named]
  simp only [only?_onInlined_of_ne _ members (show "flag" ≠ "inline" by decide),
    only?_onInlined_of_ne _ members (show "event" ≠ "inline" by decide), only?_onInlined_inline]
  rcases only? members "flag" with _ | flag
  · rfl
  rcases only? members "event" with _ | event
  · rfl
  rcases honly : only? members "inline" with _ | inlined
  · rfl
  rw [hitems inlined honly]
  exact flagIfOf?_array flag event (f items)

theorem flagIf?_onInlined_other (f : List Json → List Json) {members : List (String × Json)}
    (hother : ∀ field, only? members "inline" = some field → field.map (onItems f) = field) :
    flagIf? ((Parts.named (onInlined f members)).map Part.of) =
      flagIf? ((Parts.named members).map Part.of) := by
  rw [flagIf?_named, flagIf?_named]
  simp only [only?_onInlined_of_ne _ members (show "flag" ≠ "inline" by decide),
    only?_onInlined_of_ne _ members (show "event" ≠ "inline" by decide), only?_onInlined_inline]
  rcases honly : only? members "inline" with _ | inlined
  · rfl
  rw [Option.map_some, hother inlined honly]

/-- The kind that the one member `op` names. -/
def kind? (indexed : Bool) (members : List (String × Json)) : Option String :=
  (only? members "op").bind (required? (choice? indexed opcodes))

theorem kind?_onInlined (f : List Json → List Json) (indexed : Bool)
    (members : List (String × Json)) :
    kind? indexed (onInlined f members) = kind? indexed members := by
  rw [kind?, only?_onInlined_of_ne f members (by decide), ← kind?]

/-- An object is read from its kind and the members beside it. -/
theorem read?_object (indexed : Bool) (members : List (String × Json)) :
    read? indexed (.object members) = (kind? indexed members).bind fun opcode =>
      ofParts? opcode ((Parts.named (members.filter (·.1 != "op"))).map Part.of) := by
  rw [read?_eq, tagged?, parts?, Option.bind_some, Parts.tag?, kind?, only?]
  generalize members.filter (·.1 == "op") = found
  rcases found with _ | ⟨m, _ | _⟩
  · rfl
  · rw [Option.bind_map]
    rfl
  · rfl

/-- Nothing that an operation of another kind is read from is a matter of its member `inline`. -/
theorem ofParts?_onInlined (f : List Json → List Json) (members : List (String × Json))
    {opcode : String} (hne : opcode ≠ "flag_if") :
    ofParts? opcode ((Parts.named (onInlined f members)).map Part.of) =
      ofParts? opcode ((Parts.named members).map Part.of) :=
  ofParts?_congr_of_ne (fun names hnames => by
    rw [Parts.fields?_map, Parts.fields?_map, fields?_onInlined f members hnames]) hne

theorem ofParts?_flagIf (parts : Parts Part) : ofParts? "flag_if" parts = flagIf? parts := by
  simp [ofParts?]

theorem bind_refill_of_ne {opcode : String} (hne : opcode ≠ "flag_if") (parts : Parts Part)
    (ops : Option (List Operation)) :
    (ofParts? opcode parts).bind (refill ops) = ofParts? opcode parts := by
  cases hop : ofParts? opcode parts with
  | none => rfl
  | some op =>
      rw [← opcode_of_ofParts? hop] at hne
      cases op with
      | flagIf flag event inlined => exact absurd rfl hne
      | _ => rfl

/-- An object with other inline items is read as the object without any, and its inline operations
are read in their place. -/
theorem read?_onInlined_array (f : List Json → List Json) (indexed : Bool)
    {members : List (String × Json)} {items : List Json}
    (hitems : (Json.object members).inlineItems? = some items) :
    read? indexed (.object (onInlined f members)) =
      (read? indexed (Json.object members).emptied).bind
        (refill (readItems? true (f items))) := by
  have hinline : ∀ field, only? (members.filter (·.1 != "op")) "inline" = some field →
      field = some (.array items) := by
    intro field hfield
    rw [only?_filter_ne members (by decide)] at hfield
    rw [inlineItems?, member?_of_only? hfield] at hitems
    split at hitems
    · rw [Option.some.inj hitems]
    · cases hitems
  rw [emptied, read?_object, read?_object, kind?_onInlined, kind?_onInlined,
    filter_onInlined f members (p := (· != "op")),
    filter_onInlined (fun _ => []) members (p := (· != "op"))]
  rcases kind? indexed members with _ | opcode
  · rfl
  rw [Option.bind_some, Option.bind_some]
  by_cases hflagIf : opcode = "flag_if"
  · subst opcode
    rw [ofParts?_flagIf, ofParts?_flagIf]
    exact flagIf?_onInlined_array f hinline
  · rw [ofParts?_onInlined _ _ hflagIf, ofParts?_onInlined _ _ hflagIf, bind_refill_of_ne hflagIf]

theorem read?_onInlined_other (f : List Json → List Json) (indexed : Bool)
    {members : List (String × Json)} (hnone : (Json.object members).inlineItems? = none) :
    read? indexed (.object (onInlined f members)) = read? indexed (.object members) := by
  have hinline : ∀ field, only? (members.filter (·.1 != "op")) "inline" = some field →
      field.map (onItems f) = field := by
    intro field hfield
    rw [only?_filter_ne members (by decide)] at hfield
    rw [inlineItems?, member?_of_only? hfield] at hnone
    rcases field with _ | v
    · rfl
    · cases v with
      | array items => cases hnone
      | _ => rfl
  rw [read?_object, read?_object, kind?_onInlined, filter_onInlined f members (p := (· != "op"))]
  rcases kind? indexed members with _ | opcode
  · rfl
  rw [Option.bind_some, Option.bind_some]
  by_cases hflagIf : opcode = "flag_if"
  · subst opcode
    rw [ofParts?_flagIf, ofParts?_flagIf]
    exact flagIf?_onInlined_other f hinline
  · rw [ofParts?_onInlined _ _ hflagIf]

/-- With no items in its member `inline` an operation has no inline operations but has them. -/
theorem eq_some_nil_of_read?_emptied {indexed : Bool} {members : List (String × Json)}
    {items : List Json} (hitems : (Json.object members).inlineItems? = some items) {flag : String}
    {event : Option String} {inlined : Option (List Operation)}
    (h : read? indexed (Json.object members).emptied = some (.flagIf flag event inlined)) :
    inlined = some [] := by
  have hagain := read?_onInlined_array (fun _ => []) indexed hitems
  rw [← emptied, h] at hagain
  cases hagain
  rfl

end Operation

/-! ## Loading one by one -/

namespace Operation

/-- If the value names its kind by a text, it is the name of a kind. -/
def Known (j : Json) : Prop :=
  ∀ opcode, j.member? "op" = some (.string opcode) → isOpcode opcode = true

/-- What an operation of a body is loaded as. One of an unknown kind is unsupported; every other is
read as it stands, except that inline operations are loaded by the same rule. -/
inductive LoadsAs : Bool → Json → Operation → Prop
  | unknown {indexed : Bool} {j : Json} {opcode : String}
      (hop : j.member? "op" = some (.string opcode)) (hunknown : isOpcode opcode = false) :
      LoadsAs indexed j (.unsupported opcode)
  | plain {indexed : Bool} {j : Json} {op : Operation} (hknown : Known j)
      (hread : read? indexed j = some op)
      (hplain : j.inlineItems? = none ∨ op.opcode ≠ "flag_if") : LoadsAs indexed j op
  | inlined {indexed : Bool} {j : Json} {items : List Json} {flag : String}
      {event : Option String} {ops : List Operation} (hknown : Known j)
      (hitems : j.inlineItems? = some items)
      (hread : read? indexed j.emptied = some (.flagIf flag event (some [])))
      (hloads : List.Forall₂ (LoadsAs true) items ops) :
      LoadsAs indexed j (.flagIf flag event (some ops))

/-- The operations that an operation holds outside of those of unknown kinds: itself, and what its
inline operations hold. -/
inductive Holds : Bool → Json → Bool → Json → Prop
  | self {indexed : Bool} {j : Json} : Holds indexed j indexed j
  | inlined {indexed indexed' : Bool} {j item k : Json} {items : List Json} {flag : String}
      {event : Option String} (hknown : Known j) (hitems : j.inlineItems? = some items)
      (hread : read? indexed j.emptied = some (.flagIf flag event (some [])))
      (hitem : item ∈ items) (hholds : Holds true item indexed' k) : Holds indexed j indexed' k

/-- The operation is of no unknown kind and cannot be read, even without its inline operations. -/
structure Malformed (indexed : Bool) (j : Json) : Prop where
  known : Known j
  unread : read? indexed j.emptied = none

end Operation

/-- Of the objects in the value only operations have a member `op`. Operations are the value itself
and, in turn, the items of a member `inline`. What one of an unknown kind holds does not matter. -/
inductive Json.TagsOperations : Json → Prop
  | unknown {members : List (String × Json)} (hunknown : ¬ Operation.Known (.object members)) :
      TagsOperations (.object members)
  | object {members : List (String × Json)}
      (hinlined : ∀ items, ("inline", .array items) ∈ members →
        ∀ item ∈ items, TagsOperations item)
      (hothers : ∀ m ∈ members, (m.1 = "inline" → ∀ items, m.2 ≠ .array items) →
        m.2.Untagged) : TagsOperations (.object members)
  | other {j : Json} (hnot : ∀ members, j ≠ .object members) (huntagged : j.Untagged) :
      TagsOperations j

/-! ### Known and unknown kinds -/

theorem unknownOpcode?_eq_some_iff {members : List (String × Json)} {opcode : String} :
    unknownOpcode? members = some opcode ↔
      (Json.object members).member? "op" = some (.string opcode) ∧
        Operation.isOpcode opcode = false := by
  unfold unknownOpcode?
  split
  case h_1 op hop =>
    rw [hop, Option.some.injEq, Json.string.injEq]
    cases hknown : Operation.isOpcode op with
    | true =>
        refine iff_of_false (by simp) ?_
        rintro ⟨rfl, hunknown⟩
        rw [hknown] at hunknown
        cases hunknown
    | false =>
        simp only [Bool.false_eq_true, if_false, Option.some.injEq]
        constructor
        · rintro rfl
          exact ⟨rfl, hknown⟩
        · exact And.left
  case h_2 hop =>
    exact iff_of_false (by simp) fun h => hop _ h.1

namespace Operation

theorem known_object_iff {members : List (String × Json)} :
    Known (.object members) ↔ unknownOpcode? members = none := by
  rw [Option.eq_none_iff_forall_ne_some]
  constructor
  · intro h opcode hopcode
    obtain ⟨hop, hunknown⟩ := unknownOpcode?_eq_some_iff.1 hopcode
    rw [h opcode hop] at hunknown
    cases hunknown
  · intro h opcode hop
    by_contra hunknown
    exact h opcode (unknownOpcode?_eq_some_iff.2 ⟨hop, by simpa using hunknown⟩)

/-- A value that is no object names no kind and has no inline operations. -/
theorem known_of_not_object {j : Json} (hnot : ∀ members, j ≠ .object members) :
    Known j ∧ j.inlineItems? = none := by
  have hmember (name : String) : j.member? name = none := by
    cases j with
    | object members => exact absurd rfl (hnot members)
    | _ => rfl
  refine ⟨fun opcode hop => ?_, by rw [inlineItems?, hmember]⟩
  rw [hmember] at hop
  cases hop

theorem readItems?_eq_some_iff {indexed : Bool} {items : List Json} {ops : List Operation} :
    readItems? indexed items = some ops ↔
      List.Forall₂ (fun j op => read? indexed j = some op) items ops := by
  induction items generalizing ops with
  | nil =>
      rw [readItems?, List.forall₂_nil_left_iff, Option.some.injEq, eq_comm]
  | cons j rest ih =>
      rw [List.forall₂_cons_left_iff]
      constructor
      · intro h
        obtain ⟨op, hop, h⟩ := Option.bind_eq_some_iff.1 h
        obtain ⟨others, hothers, h⟩ := Option.bind_eq_some_iff.1 h
        cases h
        exact ⟨op, others, hop, ih.1 hothers, rfl⟩
      · rintro ⟨op, others, hop, hothers, rfl⟩
        rw [readItems?, hop, ih.2 hothers]
        rfl

theorem readItems?_eq_none_iff {indexed : Bool} {items : List Json} :
    readItems? indexed items = none ↔ ∃ j ∈ items, read? indexed j = none := by
  induction items with
  | nil => simp [readItems?]
  | cons j rest ih =>
      rw [readItems?]
      cases hop : read? indexed j with
      | none => simp [hop]
      | some op =>
          have htail : (∃ k ∈ j :: rest, read? indexed k = none) ↔
              readItems? indexed rest = none := by simp [ih, hop]
          rw [htail]
          cases readItems? indexed rest <;> simp

theorem forall₂_congr_of_mem {R S : Json → Operation → Prop} {items : List Json}
    (h : ∀ item ∈ items, ∀ op, R item op ↔ S item op) {ops : List Operation} :
    List.Forall₂ R items ops ↔ List.Forall₂ S items ops := by
  induction items generalizing ops with
  | nil => rw [List.forall₂_nil_left_iff, List.forall₂_nil_left_iff]
  | cons item rest ih =>
      simp only [List.forall₂_cons_left_iff, h item List.mem_cons_self,
        ih fun item hitem => h item (List.mem_cons_of_mem _ hitem)]

/-! ### One operation -/

/-- Marking reaches the inline operations and nothing else of an operation. -/
theorem markUnsupported_object {members : List (String × Json)}
    (hknown : unknownOpcode? members = none)
    (hothers : ∀ m ∈ members, (m.1 = "inline" → ∀ items, m.2 ≠ .array items) → m.2.Untagged) :
    markUnsupported (.object members) = .object (onInlined markItems members) := by
  rw [markUnsupported, hknown, markMembers_eq_map, onInlined]
  refine congrArg _ (List.map_congr_left fun m hm => ?_)
  by_cases hitems : ∃ items, m.1 = "inline" ∧ m.2 = .array items
  · obtain ⟨items, hname, hvalue⟩ := hitems
    rw [if_pos hname, hvalue]
    rfl
  · have huntagged := hothers m hm fun hname items hvalue => hitems ⟨items, hname, hvalue⟩
    rw [huntagged.mark]
    split
    · rename_i hname
      have hsame : onItems markItems m.2 = m.2 := by
        cases hvalue : m.2 with
        | array items => exact absurd ⟨items, hname, hvalue⟩ hitems
        | _ => rfl
      rw [hsame]
    · rfl

theorem read?_markUnsupported_of_unknown {indexed : Bool} {members : List (String × Json)}
    {opcode : String} (hunknown : unknownOpcode? members = some opcode) :
    read? indexed (markUnsupported (.object members)) = some (.unsupported opcode) := by
  rw [markUnsupported, hunknown]
  rfl

section loadsAs

variable {indexed : Bool} {members : List (String × Json)} {op : Operation}

theorem loadsAs_iff_of_unknown {opcode : String}
    (hunknown : unknownOpcode? members = some opcode) :
    LoadsAs indexed (.object members) op ↔ op = .unsupported opcode := by
  have hnot : ¬ Known (.object members) := fun hknown => by
    rw [known_object_iff.1 hknown] at hunknown
    cases hunknown
  obtain ⟨hop, hopcode⟩ := unknownOpcode?_eq_some_iff.1 hunknown
  constructor
  · intro h
    cases h with
    | unknown hop' =>
        rw [hop] at hop'
        cases hop'
        rfl
    | plain hknown => exact absurd hknown hnot
    | inlined hknown => exact absurd hknown hnot
  · rintro rfl
    exact .unknown hop hopcode

theorem loadsAs_iff_of_inlineItems?_eq_none {j : Json} (hknown : Known j)
    (hnone : j.inlineItems? = none) : LoadsAs indexed j op ↔ read? indexed j = some op := by
  constructor
  · intro h
    cases h with
    | unknown hop hunknown =>
        rw [hknown _ hop] at hunknown
        cases hunknown
    | plain _ hread => exact hread
    | inlined _ hitems => rw [hnone] at hitems; cases hitems
  · exact fun hread => .plain hknown hread (.inl hnone)

theorem mem_of_inlineItems? {items : List Json}
    (hitems : (Json.object members).inlineItems? = some items) :
    ("inline", .array items) ∈ members := by
  unfold inlineItems? at hitems
  split at hitems
  case h_1 found hfound =>
    cases hitems
    obtain ⟨m, hfind, hm⟩ := Option.map_eq_some_iff.1 hfound
    have hname : m.1 = "inline" := by simpa using List.find?_some hfind
    have hmem : m ∈ members := List.mem_reverse.1 (List.mem_of_find?_eq_some hfind)
    rwa [← hname, ← hm]
  case h_2 => cases hitems

theorem read?_object_of_inlineItems? {items : List Json}
    (hitems : (Json.object members).inlineItems? = some items) :
    read? indexed (.object members) =
      (read? indexed (Json.object members).emptied).bind (refill (readItems? true items)) := by
  have hself : onInlined id members = members := by
    refine (List.map_congr_left fun m _ => ?_).trans (List.map_id' members)
    obtain ⟨name, v⟩ := m
    cases v <;> simp [onItems]
  have hread := read?_onInlined_array id indexed hitems
  rwa [hself] at hread

/-- With items in its member `inline` an operation is loaded as it is read without them, and they
are loaded in their place. -/
theorem loadsAs_iff_of_inlineItems? {items : List Json} (hknown : Known (.object members))
    (hitems : (Json.object members).inlineItems? = some items)
    {loaded : Option (List Operation)}
    (hloaded : ∀ ops, loaded = some ops ↔ List.Forall₂ (LoadsAs true) items ops) :
    LoadsAs indexed (.object members) op ↔
      (read? indexed (Json.object members).emptied).bind (refill loaded) = some op := by
  constructor
  · intro h
    cases h with
    | unknown hop hunknown =>
        rw [hknown _ hop] at hunknown
        cases hunknown
    | plain _ hread hplain =>
        have hplain : op.opcode ≠ "flag_if" := hplain.resolve_left (by rw [hitems]; simp)
        rw [read?_object_of_inlineItems? hitems] at hread
        obtain ⟨bare, hbare, hrefill⟩ := Option.bind_eq_some_iff.1 hread
        rw [hbare, Option.bind_some]
        cases bare with
        | flagIf flag event inlined =>
            obtain ⟨ops, -, rfl⟩ := Option.map_eq_some_iff.1 hrefill
            exact absurd rfl hplain
        | _ => exact hrefill
    | inlined _ hitems' hread hloads =>
        obtain rfl := Option.some.inj (hitems.symm.trans hitems')
        rw [hread, Option.bind_some, (hloaded _).2 hloads]
        rfl
  · intro h
    obtain ⟨bare, hbare, hrefill⟩ := Option.bind_eq_some_iff.1 h
    by_cases hflagIf : bare.opcode = "flag_if"
    · cases bare with
      | flagIf flag event inlined =>
          obtain ⟨ops, hops, rfl⟩ := Option.map_eq_some_iff.1 hrefill
          rw [eq_some_nil_of_read?_emptied hitems hbare] at hbare
          exact .inlined hknown hitems hbare ((hloaded ops).1 hops)
      | _ => simp [opcode] at hflagIf
    · have hsame (ops : Option (List Operation)) : refill ops bare = some bare := by
        cases bare with
        | flagIf flag event inlined => exact absurd rfl hflagIf
        | _ => rfl
      obtain rfl := Option.some.inj ((hsame loaded).symm.trans hrefill)
      refine .plain hknown ?_ (.inr hflagIf)
      rw [read?_object_of_inlineItems? hitems, hbare, Option.bind_some, hsame]

end loadsAs

/-- A marked operation is read as what it is loaded as. The induction is on the nesting of inline
operations. -/
theorem read?_markUnsupported_iff {j : Json} (h : j.TagsOperations) {indexed : Bool}
    {op : Operation} :
    read? indexed (markUnsupported j) = some op ↔ LoadsAs indexed j op := by
  induction h generalizing indexed op with
  | @unknown members hunknown =>
      rw [known_object_iff, ← ne_eq, Option.ne_none_iff_exists'] at hunknown
      obtain ⟨opcode, hopcode⟩ := hunknown
      rw [read?_markUnsupported_of_unknown hopcode, loadsAs_iff_of_unknown hopcode,
        Option.some.injEq, eq_comm]
  | @object members _ hothers ih =>
      cases hunknown : unknownOpcode? members with
      | some opcode =>
          rw [read?_markUnsupported_of_unknown hunknown, loadsAs_iff_of_unknown hunknown,
            Option.some.injEq, eq_comm]
      | none =>
          have hknown := known_object_iff.2 hunknown
          rw [markUnsupported_object hunknown hothers]
          cases hitems : (Json.object members).inlineItems? with
          | none =>
              rw [read?_onInlined_other markItems indexed hitems,
                loadsAs_iff_of_inlineItems?_eq_none hknown hitems]
          | some items =>
              have hloaded (ops : List Operation) :
                  readItems? true (markItems items) = some ops ↔
                    List.Forall₂ (LoadsAs true) items ops := by
                rw [readItems?_eq_some_iff, markItems_eq_map, List.forall₂_map_left_iff]
                exact forall₂_congr_of_mem fun item hitem op =>
                  ih items (mem_of_inlineItems? hitems) item hitem
              rw [read?_onInlined_array markItems indexed hitems,
                loadsAs_iff_of_inlineItems? hknown hitems hloaded]
  | @other j hnot huntagged =>
      obtain ⟨hknown, hnone⟩ := known_of_not_object hnot
      rw [huntagged.mark, loadsAs_iff_of_inlineItems?_eq_none hknown hnone]

/-! ### What keeps an operation from being loaded -/

/-- An operation holds a malformed one. -/
def Breaks (indexed : Bool) (j : Json) : Prop :=
  ∃ indexed' k, Holds indexed j indexed' k ∧ Malformed indexed' k

theorem breaks_iff {indexed : Bool} {j : Json} :
    Breaks indexed j ↔ Malformed indexed j ∨
      Known j ∧ ∃ items flag event, j.inlineItems? = some items ∧
        read? indexed j.emptied = some (.flagIf flag event (some [])) ∧
        ∃ item ∈ items, Breaks true item := by
  constructor
  · rintro ⟨indexed', k, hholds, hmalformed⟩
    cases hholds with
    | self => exact .inl hmalformed
    | inlined hknown hitems hread hitem hholds =>
        exact .inr ⟨hknown, _, _, _, hitems, hread, _, hitem, _, _, hholds, hmalformed⟩
  · rintro (hmalformed | ⟨hknown, items, flag, event, hitems, hread, item, hitem, indexed', k,
      hholds, hmalformed⟩)
    · exact ⟨indexed, j, .self, hmalformed⟩
    · exact ⟨indexed', k, .inlined hknown hitems hread hitem hholds, hmalformed⟩

theorem not_breaks_of_unknown {indexed : Bool} {members : List (String × Json)}
    (hunknown : ¬ Known (.object members)) : ¬ Breaks indexed (.object members) := by
  rw [breaks_iff]
  rintro (hmalformed | ⟨hknown, -⟩)
  · exact hunknown hmalformed.known
  · exact hunknown hknown

theorem breaks_iff_of_inlineItems?_eq_none {indexed : Bool} {j : Json} (hknown : Known j)
    (hnone : j.inlineItems? = none) : Breaks indexed j ↔ read? indexed j = none := by
  have hemptied : read? indexed j.emptied = read? indexed j := by
    cases j with
    | object members => exact read?_onInlined_other (fun _ => []) indexed hnone
    | _ => rfl
  rw [breaks_iff, ← hemptied]
  constructor
  · rintro (hmalformed | ⟨-, items, -, -, hitems, -⟩)
    · exact hmalformed.unread
    · rw [hnone] at hitems
      cases hitems
  · exact fun hunread => .inl ⟨hknown, hunread⟩

theorem breaks_iff_of_inlineItems? {indexed : Bool} {members : List (String × Json)}
    {items : List Json} (hknown : Known (.object members))
    (hitems : (Json.object members).inlineItems? = some items)
    {loaded : Option (List Operation)}
    (hloaded : loaded = none ↔ ∃ item ∈ items, Breaks true item) :
    Breaks indexed (.object members) ↔
      (read? indexed (Json.object members).emptied).bind (refill loaded) = none := by
  rw [breaks_iff]
  cases hbare : read? indexed (Json.object members).emptied with
  | none => exact iff_of_true (.inl ⟨hknown, hbare⟩) rfl
  | some bare =>
      have hread : ¬ Malformed indexed (.object members) := fun hmalformed => by
        rw [hmalformed.unread] at hbare
        cases hbare
      rw [or_iff_right hread, Option.bind_some]
      cases bare with
      | flagIf flag event inlined =>
          obtain rfl := eq_some_nil_of_read?_emptied hitems hbare
          rw [refill, Option.map_eq_none_iff, hloaded]
          constructor
          · rintro ⟨-, items', -, -, hitems', -, hbreaks⟩
            rwa [Option.some.inj (hitems.symm.trans hitems')]
          · exact fun hbreaks => ⟨hknown, items, flag, event, hitems, rfl, hbreaks⟩
      | _ =>
          refine iff_of_false ?_ (by simp [refill])
          rintro ⟨-, -, -, -, -, ⟨⟩, -⟩

/-- A marked operation cannot be read only because of a malformed one. -/
theorem read?_markUnsupported_eq_none_iff {j : Json} (h : j.TagsOperations) {indexed : Bool} :
    read? indexed (markUnsupported j) = none ↔ Breaks indexed j := by
  induction h generalizing indexed with
  | @unknown members hunknown =>
      have hsome := hunknown
      rw [known_object_iff, ← ne_eq, Option.ne_none_iff_exists'] at hsome
      obtain ⟨opcode, hopcode⟩ := hsome
      rw [read?_markUnsupported_of_unknown hopcode]
      exact iff_of_false (by simp) (not_breaks_of_unknown hunknown)
  | @object members _ hothers ih =>
      cases hunknown : unknownOpcode? members with
      | some opcode =>
          rw [read?_markUnsupported_of_unknown hunknown]
          refine iff_of_false (by simp) (not_breaks_of_unknown fun hknown => ?_)
          rw [known_object_iff.1 hknown] at hunknown
          cases hunknown
      | none =>
          have hknown := known_object_iff.2 hunknown
          rw [markUnsupported_object hunknown hothers]
          cases hitems : (Json.object members).inlineItems? with
          | none =>
              rw [read?_onInlined_other markItems indexed hitems,
                breaks_iff_of_inlineItems?_eq_none hknown hitems]
          | some items =>
              have hloaded : readItems? true (markItems items) = none ↔
                  ∃ item ∈ items, Breaks true item := by
                simp only [readItems?_eq_none_iff, markItems_eq_map, List.mem_map,
                  exists_exists_and_eq_and]
                exact exists_congr fun item => and_congr_right fun hitem =>
                  ih items (mem_of_inlineItems? hitems) item hitem
              rw [read?_onInlined_array markItems indexed hitems,
                breaks_iff_of_inlineItems? hknown hitems hloaded]
  | @other j hnot huntagged =>
      obtain ⟨hknown, hnone⟩ := known_of_not_object hnot
      rw [huntagged.mark, breaks_iff_of_inlineItems?_eq_none hknown hnone]

end Operation

/-! ## Bodies -/

/-- A body in which only operations have a member `op` is loaded operation by operation, in their
order. It cannot be loaded exactly if it has a malformed operation outside of those of unknown
kinds; and to mark the unknown kinds once more changes nothing. -/
theorem loaded_one_by_one {items : List Json} (h : ∀ item ∈ items, item.TagsOperations) :
    (∀ ops, loadOperations? (.array items) = some ops ↔
        List.Forall₂ (Operation.LoadsAs false) items ops) ∧
      (loadOperations? (.array items) = none ↔ ∃ item ∈ items, ∃ indexed j,
        Operation.Holds false item indexed j ∧ Operation.Malformed indexed j) ∧
      ∀ j, markUnsupported (markUnsupported j) = markUnsupported j := by
  have hload : loadOperations? (.array items) =
      Operation.readItems? false (items.map markUnsupported) := by
    rw [← markItems_eq_map]
    rfl
  refine ⟨fun ops => ?_, ?_, markUnsupported_markUnsupported⟩
  · rw [hload, Operation.readItems?_eq_some_iff, List.forall₂_map_left_iff]
    exact Operation.forall₂_congr_of_mem fun item hitem op =>
      Operation.read?_markUnsupported_iff (h item hitem)
  · simp only [hload, Operation.readItems?_eq_none_iff, List.mem_map, exists_exists_and_eq_and]
    exact exists_congr fun item => and_congr_right fun hitem =>
      Operation.read?_markUnsupported_eq_none_iff (h item hitem)

/-- Operations of known and of unknown kinds, one after the other and one inside the other. What
the shake is aimed at looks like an operation. -/
def morningItems : List Json :=
  [.object [("op", .string "say"), ("text", .string "Morning.")],
    .object [("op", .string "camera_shake"), ("target", .object [("op", .string "wait")])],
    .object [("op", .string "flag_if"), ("flag", .string "day"),
      ("inline", .array [.object [("op", .string "juggle")],
        .object [("op", .string "flag_set"), ("flag", .string "sunny")]])]]

theorem loaded_one_by_one_morning :
    (∀ item ∈ morningItems, item.TagsOperations) ∧
      List.Forall₂ (Operation.LoadsAs false) morningItems
        [.say ⟨"Morning.", none, defaultDialogIntervalMs, false⟩, .unsupported "camera_shake",
          .flagIf "day" none (some [.unsupported "juggle", .flagSet "sunny"])] := by
  have hplain (s : String) : (Json.string s).Untagged := .plain rfl
  have hunknown (s : String) (members : List (String × Json)) (hs : Operation.isOpcode s = false)
      (hop : (Json.object members).member? "op" = some (.string s)) :
      (Json.object members).TagsOperations :=
    .unknown fun hknown => by
      rw [hknown s hop] at hs
      cases hs
  have htags : ∀ item ∈ morningItems, item.TagsOperations := by
    simp only [morningItems, List.forall_mem_cons]
    refine ⟨.object (by simp) (by simp [hplain]), hunknown "camera_shake" _ (by decide) rfl,
      .object ?_ ?_, by simp⟩
    · intro items hitems
      obtain rfl : items = [.object [("op", .string "juggle")],
          .object [("op", .string "flag_set"), ("flag", .string "sunny")]] := by
        simpa using hitems
      simp only [List.forall_mem_cons]
      exact ⟨hunknown "juggle" _ (by decide) rfl, .object (by simp) (by simp [hplain]), by simp⟩
    · simp [hplain]
  exact ⟨htags, ((loaded_one_by_one htags).1 _).1 (by rfl)⟩

end Cutscene
