import Cutscene.Operation.Codec
import Cutscene.Proofs.Json.Records

/-!
# How an operation is read

An operation is read from its tag and from the fields beside it (`Operation.read?_eq`), and nothing
but the fields of its kind matters (`Operation.ofParts?_congr`). What is read is of the kind that
the tag names (`Operation.opcode_of_ofParts?`).
-/

namespace Cutscene

open Json

theorem Cue.ofParts?_congr {parts others : Parts Json}
    (h : ∀ names, parts.fields? names = others.fields? names) (kind : String) :
    Cue.ofParts? kind parts = Cue.ofParts? kind others := by
  unfold ofParts?
  simp only [h]

theorem MusicAction.ofParts?_congr {parts others : Parts Json}
    (h : ∀ names, parts.fields? names = others.fields? names) (kind : String) :
    MusicAction.ofParts? kind parts = MusicAction.ofParts? kind others := by
  unfold ofParts?
  simp only [h]

namespace Operation

theorem ofParts?_congr {parts others : Parts Part}
    (h : ∀ names, parts.fields? names = others.fields? names) (opcode : String) :
    ofParts? opcode parts = ofParts? opcode others := by
  unfold ofParts? say? flagged? fade? flagIf? tileReplace?
  simp only [h]

/-- A value as a part. -/
def Part.of (j : Json) : Part := ⟨j, readList? true j⟩

section fields

variable {α : Type} (read : Json → Option α) (field : Option Json)

@[simp] theorem Part.as_of (j : Json) : (Part.of j).as read = read j := rfl

@[simp] theorem required?_map_of :
    required? (Part.as read) (field.map Part.of) = required? read field := by
  cases field <;> rfl

@[simp] theorem withDefault?_map_of (default : α) :
    withDefault? default (Part.as read) (field.map Part.of) = withDefault? default read field := by
  cases field <;> rfl

end fields

theorem memberParts_eq_map (members : List (String × Json)) :
    memberParts members = members.map fun m => (m.1, Part.of m.2) := by
  induction members with
  | nil => rfl
  | cons m ms ih => rw [memberParts, ih, List.map_cons, Part.of]

theorem itemParts_eq_map (items : List Json) : itemParts items = items.map Part.of := by
  induction items with
  | nil => rfl
  | cons j rest ih => rw [itemParts, ih, List.map_cons, Part.of]

/-- The kind of an operation and the parts beside it. -/
def tagged? (indexed : Bool) (j : Json) : Option (String × Parts Json) :=
  j.parts?.bind fun parts => parts.tag? "op" (choice? indexed opcodes)

/-- An operation is read from its kind and the parts beside it. -/
theorem read?_eq (indexed : Bool) (j : Json) :
    read? indexed j = (tagged? indexed j).bind fun t => ofParts? t.1 (t.2.map Part.of) := by
  have htagged (parts : Parts Json) : ofTagged? indexed (parts.map Part.of) =
      (parts.tag? "op" (choice? indexed opcodes)).bind fun t =>
        ofParts? t.1 (t.2.map Part.of) := by
    rw [ofTagged?, Parts.tag?_map, Option.bind_eq_bind, Option.bind_map]
    rfl
  cases j with
  | object members =>
      rw [read?, memberParts_eq_map, tagged?, parts?, Option.bind_some, ← htagged]
      rfl
  | array items =>
      rw [read?, itemParts_eq_map, tagged?, parts?, Option.bind_some, ← htagged]
      rfl
  | _ => rfl

/-! ## Kinds -/

section kinds

variable {parts : Parts Part} {op : Operation} {opcode : String}

/-- The kinds are tried one after another: what is read is of the kind that the tag names, if the
kind tried now and the others read only what is of theirs. -/
theorem opcode_of_ite {kind : String} {reading others : Option Operation}
    (hreading : reading = some op → op.opcode = kind)
    (hothers : others = some op → op.opcode = opcode)
    (h : (if opcode = kind then reading else others) = some op) : op.opcode = opcode := by
  split at h
  · rename_i hkind
    exact (hreading h).trans hkind.symm
  · exact hothers h

theorem opcode_of_map {α : Type} {make : α → Operation} {read : Option α}
    (hmake : ∀ a, (make a).opcode = opcode) (h : read.map make = some op) :
    op.opcode = opcode := by
  obtain ⟨a, -, rfl⟩ := Option.map_eq_some_iff.1 h
  exact hmake a

theorem opcode_of_flagged? {make : String → Operation} {field : String}
    (hmake : ∀ flag, (make flag).opcode = opcode) (h : flagged? make field parts = some op) :
    op.opcode = opcode := by
  unfold flagged? at h
  split at h
  · exact opcode_of_map hmake h
  · cases h

theorem opcode_of_fade? {make : UInt64 → Operation} (hmake : ∀ d, (make d).opcode = opcode)
    (h : fade? make parts = some op) : op.opcode = opcode := by
  unfold fade? at h
  split at h
  · exact opcode_of_map hmake h
  · cases h

theorem opcode_of_say? (h : say? parts = some op) : op.opcode = "say" := by
  unfold say? at h
  split at h
  · obtain ⟨text, -, h⟩ := Option.bind_eq_some_iff.1 h
    obtain ⟨expression, -, h⟩ := Option.bind_eq_some_iff.1 h
    obtain ⟨interval, -, h⟩ := Option.bind_eq_some_iff.1 h
    obtain ⟨append, -, h⟩ := Option.bind_eq_some_iff.1 h
    cases h
    rfl
  · cases h

theorem opcode_of_flagIf? (h : flagIf? parts = some op) : op.opcode = "flag_if" := by
  unfold flagIf? at h
  split at h
  · obtain ⟨flag, -, h⟩ := Option.bind_eq_some_iff.1 h
    obtain ⟨event, -, h⟩ := Option.bind_eq_some_iff.1 h
    obtain ⟨inlined, -, h⟩ := Option.bind_eq_some_iff.1 h
    cases h
    rfl
  · cases h

theorem opcode_of_tileReplace? (h : tileReplace? parts = some op) :
    op.opcode = "tile_replace" := by
  unfold tileReplace? at h
  split at h
  · obtain ⟨layer, -, h⟩ := Option.bind_eq_some_iff.1 h
    obtain ⟨start, -, h⟩ := Option.bind_eq_some_iff.1 h
    obtain ⟨stop, -, h⟩ := Option.bind_eq_some_iff.1 h
    obtain ⟨atlas, -, h⟩ := Option.bind_eq_some_iff.1 h
    obtain ⟨rotation, -, h⟩ := Option.bind_eq_some_iff.1 h
    cases h
    rfl
  · cases h

/-- An operation that is read is of the kind that it is tagged with. -/
theorem opcode_of_ofParts? (h : ofParts? opcode parts = some op) : op.opcode = opcode := by
  rw [ofParts?] at h
  revert h
  refine opcode_of_ite opcode_of_say? ?_
  refine opcode_of_ite ?_ ?_
  · intro h
    split at h
    · exact opcode_of_map (fun _ => rfl) h
    · cases h
  refine opcode_of_ite (opcode_of_map fun _ => rfl) ?_
  refine opcode_of_ite (opcode_of_map fun _ => rfl) ?_
  refine opcode_of_ite ?_ ?_
  · intro h
    split at h
    · obtain ⟨first, -, h⟩ := Option.bind_eq_some_iff.1 h
      obtain ⟨second, -, h⟩ := Option.bind_eq_some_iff.1 h
      cases h
      rfl
    · cases h
  refine opcode_of_ite ?_ ?_
  · intro h
    split at h
    · exact opcode_of_map (fun _ => rfl) h
    · cases h
  refine opcode_of_ite (opcode_of_flagged? fun _ => rfl) ?_
  refine opcode_of_ite (opcode_of_flagged? fun _ => rfl) ?_
  refine opcode_of_ite opcode_of_flagIf? ?_
  refine opcode_of_ite (opcode_of_flagged? fun _ => rfl) ?_
  refine opcode_of_ite (opcode_of_flagged? fun _ => rfl) ?_
  refine opcode_of_ite ?_ ?_
  · intro h
    split at h
    · exact opcode_of_map (fun _ => rfl) h
    · cases h
  refine opcode_of_ite ?_ ?_
  · intro h
    split at h
    · obtain ⟨path, -, h⟩ := Option.bind_eq_some_iff.1 h
      obtain ⟨door, -, h⟩ := Option.bind_eq_some_iff.1 h
      cases h
      rfl
    · cases h
  refine opcode_of_ite opcode_of_tileReplace? ?_
  refine opcode_of_ite (opcode_of_fade? fun _ => rfl) ?_
  refine opcode_of_ite (opcode_of_fade? fun _ => rfl) ?_
  exact opcode_of_ite (opcode_of_flagged? fun _ => rfl) nofun

end kinds

end Operation

end Cutscene
