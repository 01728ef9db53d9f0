import Mathlib.Tactic.SplitIfs
import Cutscene.Proofs.Operation.Reading
import Cutscene.Scene

/-!
# What marking unknown operations loses

Before a body is read, every object whose `op` is an unknown text is replaced by an unsupported
operation. The object need not be an operation. Most others that an operation can contain do no
harm, because they stand where nothing is read. Three are records that the operation takes: the
options of a selection, the cue of an entity and the command of music (`Operation.Takes`). With one
of them replaced the body cannot be loaded, although it could be read as it stands; without, it is
loaded as it is read (`loaded_unless_record_replaced`).

The proof goes through the readers: those of plain values do not notice the marking (`Steady`),
those of the three records fail exactly on what is replaced, and an operation is lost if one of its
records is (`Operation.lostIf_read?`).
-/

namespace Cutscene

open Json

/-! ## The marked value -/

/-- Whether a value is taken for an operation of an unknown kind. -/
def Json.isReplaced : Json → Bool
  | .object members => (unknownOpcode? members).isSome
  | _ => false

theorem mem_of_unknownOpcode? {members : List (String × Json)} {opcode : String}
    (h : unknownOpcode? members = some opcode) :
    ("op", .string opcode) ∈ members ∧ Operation.isOpcode opcode = false := by
  unfold unknownOpcode? at h
  split at h
  case h_1 op hop =>
    obtain ⟨⟨name, value⟩, hfind, rfl⟩ := Option.map_eq_some_iff.1 hop
    have hname : name = "op" := by simpa using List.find?_some hfind
    have hmem := List.mem_reverse.1 (List.mem_of_find?_eq_some hfind)
    split at h
    · cases h
    case isFalse hknown =>
      cases h
      exact ⟨hname ▸ hmem, by simpa using hknown⟩
  · cases h

theorem markMembers_eq_map (members : List (String × Json)) :
    markMembers members = members.map fun m => (m.1, markUnsupported m.2) := by
  induction members with
  | nil => rfl
  | cons m ms ih => rw [markMembers, ih, List.map_cons]

theorem markItems_eq_map (items : List Json) : markItems items = items.map markUnsupported := by
  induction items with
  | nil => rfl
  | cons j rest ih => rw [markItems, ih, List.map_cons]

theorem markUnsupported_of_isReplaced {j : Json} (h : j.isReplaced = true) :
    ∃ opcode, markUnsupported j =
      .object [("op", .string "unsupported"), ("opcode", .string opcode)] := by
  cases j with
  | object members =>
      obtain ⟨opcode, hopcode⟩ := Option.isSome_iff_exists.1 h
      exact ⟨opcode, by rw [markUnsupported, hopcode]⟩
  | _ => cases h

theorem parts?_markUnsupported {j : Json} (h : j.isReplaced = false) :
    (markUnsupported j).parts? = j.parts?.map (Parts.map markUnsupported) := by
  cases j with
  | object members =>
      have hnone : unknownOpcode? members = none := by simpa [isReplaced] using h
      rw [markUnsupported, hnone, markMembers_eq_map]
      rfl
  | array items =>
      rw [markUnsupported, markItems_eq_map]
      rfl
  | _ => rfl

/-! ## Readers that marking does not disturb -/

/-- A reader takes a marked value as it takes the value. -/
def Steady {α : Type} (read : Json → Option α) : Prop := ∀ j, read (markUnsupported j) = read j

section steady

variable {α : Type} {read : Json → Option α}

theorem Steady.of_plain (hitems : ∀ items, read (.array items) = none)
    (hmembers : ∀ members, read (.object members) = none) : Steady read := by
  intro j
  cases j with
  | array items => rw [markUnsupported, hitems, hitems]
  | object members =>
      rw [markUnsupported]
      split <;> rw [hmembers, hmembers]
  | _ => rfl

@[simp] theorem steady_text? : Steady text? := .of_plain (fun _ => rfl) fun _ => rfl

@[simp] theorem steady_boolean? : Steady boolean? := .of_plain (fun _ => rfl) fun _ => rfl

@[simp] theorem steady_word? : Steady word? := .of_plain (fun _ => rfl) fun _ => rfl

@[simp] theorem steady_int64? : Steady int64? := .of_plain (fun _ => rfl) fun _ => rfl

@[simp] theorem steady_int32? : Steady int32? := .of_plain (fun _ => rfl) fun _ => rfl

@[simp] theorem steady_single? : Steady single? := .of_plain (fun _ => rfl) fun _ => rfl

@[simp] theorem steady_textOrNull? : Steady textOrNull? := .of_plain (fun _ => rfl) fun _ => rfl

@[simp] theorem steady_choice? (indexed : Bool) (names : List String) :
    Steady (choice? indexed names) := .of_plain (fun _ => rfl) fun _ => rfl

@[simp] theorem steady_corner? : Steady corner? := by
  intro j
  cases j with
  | array items =>
      rw [markUnsupported, markItems_eq_map]
      rcases items with _ | ⟨x, _ | ⟨y, _ | _⟩⟩
      · rfl
      · rfl
      · simp only [List.map_cons, List.map_nil, corner?, steady_int32? x, steady_int32? y]
      · rfl
  | object members =>
      rw [markUnsupported]
      split <;> rfl
  | _ => rfl

/-- Whether a value is one of the two ways to write that a member holds nothing. -/
def isBare : Json → Bool
  | .null => true
  | .object members => members.isEmpty
  | _ => false

theorem isBare_mark (j : Json) : isBare (markUnsupported j) = isBare j := by
  cases j with
  | object members =>
      cases members with
      | nil => rfl
      | cons m ms =>
          rw [markUnsupported]
          split <;> rfl
  | array items => rw [markUnsupported]; rfl
  | _ => rfl

theorem bareChoice?_single (names : List String) (s : String) (j : Json) :
    bareChoice? names (.object [(s, j)]) = if isBare j ∧ s ∈ names then some s else none := by
  cases j with
  | null => simp [bareChoice?, isBare]
  | object members => cases members <;> simp [bareChoice?, isBare]
  | _ => simp [bareChoice?, isBare]

theorem bareChoice?_many (names : List String) (m n : String × Json) (ms : List (String × Json)) :
    bareChoice? names (.object (m :: n :: ms)) = none := by
  simp [bareChoice?]

@[simp] theorem steady_bareChoice? (names : List String) : Steady (bareChoice? names) := by
  intro j
  cases j with
  | array items => rw [markUnsupported]; rfl
  | object members =>
      rcases members with _ | ⟨⟨s, v⟩, _ | ⟨m, ms⟩⟩
      · rfl
      · rw [markUnsupported]
        split
        case h_1 opcode hopcode =>
          -- The one member holds a text, so the value named nothing before it was replaced.
          obtain ⟨rfl, rfl⟩ : "op" = s ∧ .string opcode = v := by
            simpa using (mem_of_unknownOpcode? hopcode).1
          rfl
        · rw [markMembers, markMembers, bareChoice?_single, bareChoice?_single, isBare_mark]
      · rw [markUnsupported, bareChoice?_many]
        split
        · rw [bareChoice?_many]
        · rw [markMembers, markMembers, bareChoice?_many]
  | _ => rfl

@[simp] theorem required?_map_mark (h : Steady read) (field : Option Json) :
    required? read (field.map markUnsupported) = required? read field := by
  cases field with
  | none => rfl
  | some j => exact h j

@[simp] theorem withDefault?_map_mark (h : Steady read) (default : α) (field : Option Json) :
    withDefault? default read (field.map markUnsupported) = withDefault? default read field := by
  cases field with
  | none => rfl
  | some j => exact h j

end steady

/-! ## Records -/

/-- A record that is read from its parts is lost if it is replaced, and otherwise is read as it
was if its parts are. -/
theorem bind_parts?_mark {α : Type} {read : Parts Json → Option α}
    (hsteady : ∀ parts, read (parts.map markUnsupported) = read parts)
    (hreplaced : ∀ opcode,
      read (.named [("op", .string "unsupported"), ("opcode", .string opcode)]) = none) (j : Json) :
    (markUnsupported j).parts?.bind read = if j.isReplaced then none else j.parts?.bind read := by
  split
  case isTrue h =>
    obtain ⟨opcode, hmark⟩ := markUnsupported_of_isReplaced h
    rw [hmark, parts?, Option.bind_some, hreplaced]
  case isFalse h =>
    rw [parts?_markUnsupported (by simpa using h), Option.bind_map]
    exact congrArg _ (funext hsteady)

theorem tag?_map_mark {indexed : Bool} {names : List String} {tag : String} (parts : Parts Json) :
    (parts.map markUnsupported).tag? tag (choice? indexed names) =
      (parts.tag? tag (choice? indexed names)).map fun t => (t.1, t.2.map markUnsupported) := by
  rw [Parts.tag?_map]
  simp only [steady_choice? indexed names _]

theorem Choice.ofJson?_mark (j : Json) :
    Choice.ofJson? (markUnsupported j) = if j.isReplaced then none else Choice.ofJson? j := by
  refine bind_parts?_mark (fun parts => ?_) (fun _ => rfl) j
  rw [Parts.fields?_map]
  rcases parts.fields? ["label", "event"] with _ | _ | ⟨label, _ | ⟨event, _ | _⟩⟩ <;> simp

theorem Cue.ofParts?_mark (kind : String) (parts : Parts Json) :
    Cue.ofParts? kind (parts.map markUnsupported) = Cue.ofParts? kind parts := by
  unfold ofParts?
  simp only [Parts.fields?_map]
  split_ifs
  · rcases parts.fields? ["name"] with _ | _ | ⟨name, _ | _⟩ <;> simp
  · rcases parts.fields? ["x", "y", "set"] with _ | _ | ⟨x, _ | ⟨y, _ | ⟨set, _ | _⟩⟩⟩ <;> simp
  · rcases parts.fields? ["group"] with _ | _ | ⟨group, _ | _⟩ <;> simp
  · rcases parts.fields? ["name"] with _ | _ | ⟨name, _ | _⟩ <;> simp
  · rcases parts.fields? ["looped"] with _ | _ | ⟨looped, _ | _⟩ <;> simp
  · cases parts.fields? [] <;> rfl
  · rcases parts.fields? ["direction"] with _ | _ | ⟨d, _ | _⟩ <;> simp
  · rcases parts.fields? ["active"] with _ | _ | ⟨active, _ | _⟩ <;> simp
  · rfl

theorem Cue.ofJson?_mark (j : Json) :
    Cue.ofJson? (markUnsupported j) = if j.isReplaced then none else Cue.ofJson? j := by
  refine bind_parts?_mark (fun parts => ?_) (fun _ => rfl) j
  simp only [tag?_map_mark, Option.bind_eq_bind, Option.bind_map, Function.comp_def, ofParts?_mark]

theorem MusicAction.ofParts?_mark (kind : String) (parts : Parts Json) :
    MusicAction.ofParts? kind (parts.map markUnsupported) = MusicAction.ofParts? kind parts := by
  unfold ofParts?
  simp only [Parts.fields?_map]
  split_ifs
  · rcases parts.fields? ["path", "looped"] with _ | _ | ⟨path, _ | ⟨looped, _ | _⟩⟩ <;> simp
  · cases parts.fields? [] <;> rfl
  · cases parts.fields? [] <;> rfl
  · cases parts.fields? [] <;> rfl
  · rfl

theorem MusicAction.ofJson?_mark (j : Json) :
    MusicAction.ofJson? (markUnsupported j) =
      if j.isReplaced then none else MusicAction.ofJson? j := by
  refine bind_parts?_mark (fun parts => ?_) (fun _ => rfl) j
  simp only [tag?_map_mark, Option.bind_eq_bind, Option.bind_map, Function.comp_def, ofParts?_mark]

/-! ## Operations -/

namespace Operation

/-- A marked value as a part. -/
def Part.marked (j : Json) : Part := Part.of (markUnsupported j)

section plain

variable {α : Type} {read : Json → Option α} (parts : Parts Json) (field : Option Json)

@[simp] theorem required?_map_marked (h : Steady read) :
    required? (Part.as read) (field.map Part.marked) = required? read field := by
  cases field with
  | none => rfl
  | some j => exact h j

@[simp] theorem withDefault?_map_marked (h : Steady read) (default : α) :
    withDefault? default (Part.as read) (field.map Part.marked) =
      withDefault? default read field := by
  cases field with
  | none => rfl
  | some j => exact h j

theorem say?_marked : say? (parts.map Part.marked) = say? (parts.map Part.of) := by
  unfold say?
  simp only [Parts.fields?_map]
  rcases parts.fields? ["text", "expression", "interval_ms", "append"] with
    _ | _ | ⟨a, _ | ⟨b, _ | ⟨c, _ | ⟨d, _ | _⟩⟩⟩⟩ <;> simp

theorem flagged?_marked (make : String → Operation) (field : String) :
    flagged? make field (parts.map Part.marked) = flagged? make field (parts.map Part.of) := by
  unfold flagged?
  simp only [Parts.fields?_map]
  rcases parts.fields? [field] with _ | _ | ⟨a, _ | _⟩ <;> simp

theorem fade?_marked (make : UInt64 → Operation) :
    fade? make (parts.map Part.marked) = fade? make (parts.map Part.of) := by
  unfold fade?
  simp only [Parts.fields?_map]
  rcases parts.fields? ["duration_ms"] with _ | _ | ⟨a, _ | _⟩ <;> simp

theorem tileReplace?_marked :
    tileReplace? (parts.map Part.marked) = tileReplace? (parts.map Part.of) := by
  unfold tileReplace?
  simp only [Parts.fields?_map]
  rcases parts.fields? ["layer", "from", "to", "atlas", "rotation"] with
    _ | _ | ⟨a, _ | ⟨b, _ | ⟨c, _ | ⟨d, _ | ⟨e, _ | _⟩⟩⟩⟩⟩ <;> simp

/-- The kinds of operations without records and without inline operations. -/
def plainOpcodes : List String :=
  opcodes.filter (· ∉ ["selection", "entity", "flag_if", "music"])

/-- Marking disturbs no operation without records and without inline operations. -/
theorem ofParts?_marked {opcode : String} (hplain : opcode ∈ plainOpcodes) :
    ofParts? opcode (parts.map Part.marked) = ofParts? opcode (parts.map Part.of) := by
  have hnames : opcode = "say" ∨ opcode = "wait" ∨ opcode = "wait_for_key" ∨
      opcode = "hide_box" ∨ opcode = "flag_set" ∨ opcode = "flag_unset" ∨
      opcode = "flag_exit_if" ∨ opcode = "flag_once" ∨ opcode = "scene_load" ∨
      opcode = "tile_replace" ∨ opcode = "fade_in" ∨ opcode = "fade_out" ∨
      opcode = "unsupported" := by simpa [plainOpcodes, opcodes] using hplain
  rcases hnames with rfl | rfl | rfl | rfl | rfl | rfl | rfl | rfl | rfl | rfl | rfl | rfl | rfl
  · simp [ofParts?, say?_marked]
  · simp only [ofParts?, Parts.fields?_map]
    rcases parts.fields? ["duration_ms"] with _ | _ | ⟨d, _ | _⟩ <;> simp
  · simp [ofParts?, Parts.fields?_map, Function.comp_def]
  · simp [ofParts?, Parts.fields?_map, Function.comp_def]
  · simp [ofParts?, flagged?_marked]
  · simp [ofParts?, flagged?_marked]
  · simp [ofParts?, flagged?_marked]
  · simp [ofParts?, flagged?_marked]
  · simp only [ofParts?, Parts.fields?_map]
    rcases parts.fields? ["path", "door"] with _ | _ | ⟨path, _ | ⟨door, _ | _⟩⟩ <;> simp
  · simp [ofParts?, tileReplace?_marked]
  · simp [ofParts?, fade?_marked]
  · simp [ofParts?, fade?_marked]
  · simp [ofParts?, flagged?_marked]

end plain

/-! ### What marking loses -/

/-- The fields that an operation of a kind takes as records. -/
def recordFields (opcode : String) : List String :=
  if opcode = "selection" then ["first", "second"]
  else if opcode = "entity" then ["cue"]
  else if opcode = "music" then ["action"]
  else []

/-- A value that an operation takes as a record: an option, a cue or a music command, be it its own
or that of an operation that it holds inline. -/
inductive Takes : Json → Json → Prop
  | field {j record : Json} {opcode : String} {rest : Parts Json} {fields : List (Option Json)}
      (htag : tagged? true j = some (opcode, rest))
      (hfields : rest.fields? (recordFields opcode) = some fields)
      (hrecord : some record ∈ fields) : Takes j record
  | inlined {j item record : Json} {rest : Parts Json} {flag event : Option Json}
      {items : List Json} (htag : tagged? true j = some ("flag_if", rest))
      (hfields : rest.fields? ["flag", "event", "inline"] =
        some [flag, event, some (.array items)])
      (hitem : item ∈ items) (htakes : Takes item record) : Takes j record

/-- An operation takes a record that is replaced. -/
def LosesRecord (j : Json) : Prop := ∃ record, Takes j record ∧ record.isReplaced = true

/-- What is found is nothing if there is harm, and otherwise what it should be. -/
structure LostIf {α : Type} (harm : Prop) (found : Option α) (a : α) : Prop where
  lost : harm → found = none
  kept : ¬ harm → found = some a

namespace LostIf

variable {α β : Type} {harm other : Prop} {found : Option α} {a : α}

theorem of_not (hharm : ¬ harm) (hfound : found = some a) : LostIf harm found a :=
  ⟨fun h => absurd h hharm, fun _ => hfound⟩

theorem congr (h : LostIf harm found a) (hiff : other ↔ harm) : LostIf other found a :=
  ⟨fun hother => h.lost (hiff.1 hother), fun hnot => h.kept (hnot ∘ hiff.2)⟩

theorem bind {b : β} {next : α → Option β} (h : LostIf harm found a)
    (hnext : LostIf other (next a) b) : LostIf (harm ∨ other) (found.bind next) b where
  lost hor := by
    by_cases hharm : harm
    · rw [h.lost hharm, Option.bind_none]
    · rw [h.kept hharm, Option.bind_some, hnext.lost (hor.resolve_left hharm)]
  kept hnor := by
    rw [not_or] at hnor
    rw [h.kept hnor.1, Option.bind_some, hnext.kept hnor.2]

theorem map (h : LostIf harm found a) (f : α → β) : LostIf harm (found.map f) (f a) where
  lost hharm := by rw [h.lost hharm, Option.map_none]
  kept hnot := by rw [h.kept hnot, Option.map_some]

end LostIf

/-- The kind of an operation is known, is found by every reader of kinds, and keeps the operation
from being replaced. -/
theorem of_tagged? {indexed : Bool} {j : Json} {opcode : String} {rest : Parts Json}
    (h : tagged? indexed j = some (opcode, rest)) :
    opcode ∈ opcodes ∧ tagged? true j = some (opcode, rest) ∧ j.isReplaced = false := by
  obtain ⟨parts, hparts, htag⟩ := Option.bind_eq_some_iff.1 h
  obtain ⟨value, hvalue, hread, hunique⟩ := Parts.exists_of_tag? htag
  have hchoice : opcode ∈ opcodes ∧ choice? true opcodes value = some opcode := by
    cases value with
    | string s =>
        rw [choice?] at hvalue ⊢
        split at hvalue
        case isTrue hmem =>
          cases hvalue
          exact ⟨hmem, if_pos hmem⟩
        case isFalse => cases hvalue
    | integer n =>
        rw [choice?] at hvalue ⊢
        split at hvalue
        case isTrue hn => exact ⟨List.mem_of_getElem? hvalue, by rw [if_pos ⟨rfl, hn.2⟩, hvalue]⟩
        case isFalse => cases hvalue
    | _ => cases hvalue
  refine ⟨hchoice.1, ?_, ?_⟩
  · rw [tagged?, hparts, Option.bind_some, hread, hchoice.2, Option.map_some]
  · cases j with
    | object members =>
        by_contra hreplaced
        obtain ⟨o, ho⟩ := Option.isSome_iff_exists.1 (Bool.not_eq_false _ ▸ hreplaced)
        obtain ⟨hmem, hunknown⟩ := mem_of_unknownOpcode? ho
        obtain rfl := hunique members _ (Option.some.inj hparts).symm hmem
        have ho : o ∈ opcodes := by simpa [choice?] using Option.isSome_of_eq_some hchoice.2
        rw [isOpcode, List.contains_eq_mem, decide_eq_true ho] at hunknown
        cases hunknown
    | _ => rfl

theorem tagged?_mark {indexed : Bool} {j : Json} {opcode : String} {rest : Parts Json}
    (h : tagged? indexed j = some (opcode, rest)) :
    tagged? indexed (markUnsupported j) = some (opcode, rest.map markUnsupported) := by
  have hparts := parts?_markUnsupported (of_tagged? h).2.2
  obtain ⟨parts, hj, htag⟩ := Option.bind_eq_some_iff.1 h
  rw [tagged?, hparts, hj, Option.map_some, Option.bind_some, tag?_map_mark, htag, Option.map_some]

/-- The records of an operation's own that are replaced. -/
def LosesOwn (opcode : String) (rest : Parts Json) : Prop :=
  ∃ fields record, rest.fields? (recordFields opcode) = some fields ∧ some record ∈ fields ∧
    record.isReplaced = true

theorem required?_map_record {α : Type} {read : Json → Option α}
    (hread : ∀ j, read (markUnsupported j) = if j.isReplaced then none else read j)
    {field : Option Json} {a : α} (h : required? read field = some a) :
    LostIf (∃ record, some record = field ∧ record.isReplaced = true)
      (required? (Part.as read) (field.map Part.marked)) a := by
  cases field with
  | none => cases h
  | some record =>
      have hmarked : required? (Part.as read) ((some record).map Part.marked) =
          if record.isReplaced then none else read record := hread record
      rw [hmarked]
      cases hrecord : record.isReplaced with
      | true => exact ⟨fun _ => rfl, fun hnot => absurd ⟨record, rfl, hrecord⟩ hnot⟩
      | false =>
          refine .of_not ?_ h
          rintro ⟨_, ⟨⟩, hreplaced⟩
          rw [hrecord] at hreplaced
          cases hreplaced

theorem lostIf_selection {rest : Parts Json} {op : Operation}
    (h : ofParts? "selection" (rest.map Part.of) = some op) :
    LostIf (LosesOwn "selection" rest) (ofParts? "selection" (rest.map Part.marked)) op := by
  cases hfields : rest.fields? ["first", "second"] with
  | none => simp [ofParts?, Parts.fields?_map, hfields] at h
  | some fields =>
      rcases fields with _ | ⟨first, _ | ⟨second, _ | _⟩⟩ <;>
        simp [ofParts?, Parts.fields?_map, hfields] at h ⊢
      obtain ⟨c, hc, h⟩ := Option.bind_eq_some_iff.1 h
      obtain ⟨d, hd, h⟩ := Option.bind_eq_some_iff.1 h
      cases h
      have hfirst := required?_map_record Choice.ofJson?_mark hc
      have hsecond := required?_map_record Choice.ofJson?_mark hd
      refine LostIf.congr (hfirst.bind (hsecond.bind (.of_not not_false rfl))) ?_
      simp [LosesOwn, recordFields, hfields, or_and_right, exists_or]

/-- An operation with one record, which is its one field. -/
theorem lostIf_record {α : Type} {read : Json → Option α} (make : α → Operation)
    {opcode name : String} {rest : Parts Json} {op : Operation}
    (hread : ∀ j, read (markUnsupported j) = if j.isReplaced then none else read j)
    (hname : recordFields opcode = [name])
    (hparts : ∀ parts, ofParts? opcode parts = match parts.fields? [name] with
      | some [field] => (required? (Part.as read) field).map make
      | _ => none)
    (h : ofParts? opcode (rest.map Part.of) = some op) :
    LostIf (LosesOwn opcode rest) (ofParts? opcode (rest.map Part.marked)) op := by
  cases hfields : rest.fields? [name] with
  | none => simp [hparts, Parts.fields?_map, hfields] at h
  | some fields =>
      rcases fields with _ | ⟨field, _ | _⟩ <;>
        simp [hparts, Parts.fields?_map, hfields] at h ⊢
      obtain ⟨a, ha, rfl⟩ := h
      refine ((required?_map_record hread ha).map make).congr ?_
      simp [LosesOwn, hname, hfields]

theorem lostIf_entity {rest : Parts Json} {op : Operation}
    (h : ofParts? "entity" (rest.map Part.of) = some op) :
    LostIf (LosesOwn "entity" rest) (ofParts? "entity" (rest.map Part.marked)) op := by
  refine lostIf_record entity Cue.ofJson?_mark rfl (fun parts => ?_) h
  simp only [ofParts?]
  rfl

theorem lostIf_music {rest : Parts Json} {op : Operation}
    (h : ofParts? "music" (rest.map Part.of) = some op) :
    LostIf (LosesOwn "music" rest) (ofParts? "music" (rest.map Part.marked)) op := by
  refine lostIf_record music MusicAction.ofJson?_mark rfl (fun parts => ?_) h
  simp only [ofParts?]
  rfl

/-- The records of inline operations that are replaced. -/
def LosesInlined (opcode : String) (rest : Parts Json) : Prop :=
  opcode = "flag_if" ∧ ∃ flag event items,
    rest.fields? ["flag", "event", "inline"] = some [flag, event, some (.array items)] ∧
      ∃ item ∈ items, LosesRecord item

theorem losesRecord_iff {j : Json} {opcode : String} {rest : Parts Json}
    (htag : tagged? true j = some (opcode, rest)) :
    LosesRecord j ↔ LosesOwn opcode rest ∨ LosesInlined opcode rest := by
  constructor
  · rintro ⟨record, htakes, hreplaced⟩
    cases htakes with
    | field htag' hfields hrecord =>
        obtain ⟨rfl, rfl⟩ := Prod.mk.inj (Option.some.inj (htag.symm.trans htag'))
        exact .inl ⟨_, record, hfields, hrecord, hreplaced⟩
    | inlined htag' hfields hitem htakes =>
        obtain ⟨rfl, rfl⟩ := Prod.mk.inj (Option.some.inj (htag.symm.trans htag'))
        exact .inr ⟨rfl, _, _, _, hfields, _, hitem, record, htakes, hreplaced⟩
  · rintro (⟨fields, record, hfields, hrecord, hreplaced⟩ |
      ⟨rfl, flag, event, items, hfields, item, hitem, record, htakes, hreplaced⟩)
    · exact ⟨record, .field htag hfields hrecord, hreplaced⟩
    · exact ⟨record, .inlined htag hfields hitem htakes, hreplaced⟩

theorem not_losesOwn {opcode : String} {rest : Parts Json} (h : recordFields opcode = []) :
    ¬ LosesOwn opcode rest := by
  rintro ⟨fields, record, hfields, hrecord, -⟩
  rw [h] at hfields
  rw [Parts.eq_nil_of_fields?_nil hfields] at hrecord
  cases hrecord

theorem not_losesInlined {opcode : String} {rest : Parts Json} (h : opcode ≠ "flag_if") :
    ¬ LosesInlined opcode rest := fun hloses => h hloses.1

theorem lostIf_inlined {field : Option Json} {inlined : Option (List Operation)}
    (h : withDefault? none Part.inlined? (field.map Part.of) = some inlined)
    (hitems : ∀ items ops, inlined = some ops → readItems? true items = some ops →
      LostIf (∃ item ∈ items, LosesRecord item) (readItems? true (markItems items)) ops) :
    LostIf (∃ items, field = some (.array items) ∧ ∃ item ∈ items, LosesRecord item)
      (withDefault? none Part.inlined? (field.map Part.marked)) inlined := by
  rcases field with _ | j
  · exact .of_not (by simp) h
  · cases j with
    | array items =>
        obtain ⟨ops, hops, rfl⟩ := Option.map_eq_some_iff.1 h
        exact ((hitems items ops rfl hops).map some).congr (by simp)
    | null => exact .of_not (by simp) h
    | _ => cases h

theorem lostIf_flagIf {rest : Parts Json} {op : Operation}
    (h : ofParts? "flag_if" (rest.map Part.of) = some op)
    (hitems : ∀ flag event items ops, op = flagIf flag event (some ops) →
      readItems? true items = some ops →
        LostIf (∃ item ∈ items, LosesRecord item) (readItems? true (markItems items)) ops) :
    LostIf (LosesInlined "flag_if" rest) (ofParts? "flag_if" (rest.map Part.marked)) op := by
  cases hfields : rest.fields? ["flag", "event", "inline"] with
  | none => simp [ofParts?, flagIf?, Parts.fields?_map, hfields] at h
  | some fields =>
      rcases fields with _ | ⟨flag, _ | ⟨event, _ | ⟨inlined, _ | _⟩⟩⟩ <;>
        simp [ofParts?, flagIf?, Parts.fields?_map, hfields] at h ⊢
      obtain ⟨f, hf, h⟩ := Option.bind_eq_some_iff.1 h
      obtain ⟨e, he, h⟩ := Option.bind_eq_some_iff.1 h
      obtain ⟨i, hi, h⟩ := Option.bind_eq_some_iff.1 h
      cases h
      rw [hf, Option.bind_some, he, Option.bind_some]
      have hinlined := lostIf_inlined hi fun items ops hops => hitems f e items ops (by rw [hops])
      refine LostIf.congr (hinlined.bind (.of_not not_false rfl)) ?_
      simp [LosesInlined, hfields]

mutual

/-- An operation is lost by the marking if it takes a record that is replaced, and is kept if
not. -/
theorem lostIf_read? {indexed : Bool} {j : Json} (op : Operation)
    (h : read? indexed j = some op) :
    LostIf (LosesRecord j) (read? indexed (markUnsupported j)) op := by
  rw [read?_eq] at h
  obtain ⟨⟨opcode, rest⟩, htag, hparts⟩ := Option.bind_eq_some_iff.1 h
  obtain ⟨hopcode, htrue, -⟩ := of_tagged? htag
  rw [read?_eq, tagged?_mark htag, Option.bind_some, Parts.map_map]
  change LostIf _ (ofParts? opcode (rest.map Part.marked)) op
  refine LostIf.congr ?_ (losesRecord_iff htrue)
  by_cases hplain : opcode ∈ plainOpcodes
  · have hnone : recordFields opcode = [] ∧ opcode ≠ "flag_if" := by
      have hnot := (List.mem_filter.1 hplain).2
      simp only [decide_not, List.mem_cons] at hnot
      simp_all [recordFields]
    rw [ofParts?_marked rest hplain]
    exact .of_not (not_or.2 ⟨not_losesOwn hnone.1, not_losesInlined hnone.2⟩) hparts
  · have hspecial : opcode ∈ ["selection", "entity", "flag_if", "music"] := by
      by_contra hnot
      exact hplain (List.mem_filter.2 ⟨hopcode, by simpa using hnot⟩)
    simp only [List.mem_cons, List.not_mem_nil, or_false] at hspecial
    rcases hspecial with rfl | rfl | rfl | rfl
    · exact (lostIf_selection hparts).congr (or_iff_left (not_losesInlined (by simp)))
    · exact (lostIf_entity hparts).congr (or_iff_left (not_losesInlined (by simp)))
    · refine LostIf.congr (lostIf_flagIf hparts ?_) (or_iff_right (not_losesOwn rfl))
      rintro flag event items ops rfl hops
      exact lostIf_readItems? ops hops
    · exact (lostIf_music hparts).congr (or_iff_left (not_losesInlined (by simp)))

theorem lostIf_readItems? {indexed : Bool} {items : List Json} (ops : List Operation)
    (h : readItems? indexed items = some ops) :
    LostIf (∃ item ∈ items, LosesRecord item) (readItems? indexed (markItems items)) ops := by
  cases items with
  | nil => exact .of_not (by simp) h
  | cons j rest =>
      obtain ⟨op, hop, h⟩ := Option.bind_eq_some_iff.1 h
      obtain ⟨others, hothers, h⟩ := Option.bind_eq_some_iff.1 h
      cases h
      have hhead := lostIf_read? op hop
      have htail := lostIf_readItems? others hothers
      refine LostIf.congr (hhead.bind (htail.bind (.of_not not_false rfl))) ?_
      simp

end

end Operation

/-! ## Bodies -/

/-- An operation of a body takes a record that is replaced. -/
def BodyLosesRecord (body : Json) : Prop :=
  ∃ items, body = .array items ∧ ∃ item ∈ items, Operation.LosesRecord item

/-- A body that can be read as it stands is loaded as it is read, unless a record that one of its
operations takes is replaced; then it is not loaded at all. -/
theorem loaded_unless_record_replaced {body : Json} {ops : List Operation}
    (h : Operation.listOfJson? body = some ops) :
    (loadOperations? body = some ops ↔ ¬ BodyLosesRecord body) ∧
      (loadOperations? body = none ↔ BodyLosesRecord body) := by
  cases body with
  | array items =>
      have hiff : BodyLosesRecord (.array items) ↔ ∃ item ∈ items, Operation.LosesRecord item := by
        simp [BodyLosesRecord]
      have hloaded :
          Operation.LostIf (BodyLosesRecord (.array items)) (loadOperations? (.array items)) ops :=
        (Operation.lostIf_readItems? ops h).congr hiff
      by_cases hloses : BodyLosesRecord (.array items)
      · simp [hloaded.lost hloses, hloses]
      · simp [hloaded.kept hloses, hloses]
  | _ => cases h

/-- A body whose one operation has a member of its own that looks like an unknown operation, and
asks a question in its inline operations. -/
def notedBody : Json :=
  .array [.object [("op", .string "flag_if"), ("flag", .string "met"),
    ("note", .object [("op", .string "todo")]),
    ("inline", .array [.object [("op", .string "selection"),
      ("first", .object [("label", .string "Yes"), ("event", .string "go")]),
      ("second", .object [("label", .string "No"), ("event", .string "stay")])]])]]

theorem loaded_unless_record_replaced_noted :
    Operation.listOfJson? notedBody =
        some [.flagIf "met" none (some [.selection ⟨"Yes", "go"⟩ ⟨"No", "stay"⟩])] ∧
      ¬ BodyLosesRecord notedBody :=
  ⟨by rfl, (loaded_unless_record_replaced (by rfl)).1.1 (by rfl)⟩

/-- A body that asks a question, one option of which has a member `op`. -/
def hintedBody : Json :=
  .array [.object [("op", .string "selection"),
    ("first", .object [("label", .string "Yes"), ("event", .string "go"),
      ("op", .string "hint")]),
    ("second", .object [("label", .string "No"), ("event", .string "stay")])]]

/-- A body that can be read need not load: its option is taken for an unknown operation. -/
theorem hinted_option_not_loaded :
    Operation.listOfJson? hintedBody = some [.selection ⟨"Yes", "go"⟩ ⟨"No", "stay"⟩] ∧
      loadOperations? hintedBody = none :=
  ⟨by rfl, by rfl⟩

end Cutscene
