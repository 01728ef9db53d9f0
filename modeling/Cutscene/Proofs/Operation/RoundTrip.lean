import Cutscene.Proofs.Numeric.Exactness
import Cutscene.Proofs.Operation.Reading
import Cutscene.Proofs.Tracker.Calls

/-!
# Operations are read back as they were written

A written operation is read back exactly if all its numbers are finite (`Operation.read?_toJson`);
an infinite number is written as null, which is no number. The proof follows the format: a record
is read from the members it was written from, whatever their order in the file
(`Operation.read?_ofMembers`), each field is read back by the reader of its type, and inline
operations by induction.

A file need not be written this way to be read: fields with defaults may be missing and tags may be
given by their positions. To write what was read and read it again changes nothing either way
(`Operation.written_read_back`).
-/

namespace Cutscene

open Numeric Json

/-! ## Fields -/

namespace Json

@[simp] theorem text?_string (s : String) : (string s).text? = some s := rfl

@[simp] theorem boolean?_boolean (b : Bool) : (boolean b).boolean? = some b := rfl

@[simp] theorem word?_toNat (n : UInt64) : (integer n.toNat).word? = some n := by
  have := n.toNat_lt
  simp [word?, natural?, UInt64.size, this]

@[simp] theorem int64?_toInt (n : Int64) : (integer n.toInt).int64? = some n := by
  have := n.minValue_le_toInt
  have := n.toInt_le
  simp_all [int64?, integer?]

@[simp] theorem int32?_toInt (n : Int32) : (integer n.toInt).int32? = some n := by
  have := n.minValue_le_toInt
  have := n.toInt_le
  simp_all [int32?, integer?]

@[simp] theorem textOrNull?_ofText? (text : Option String) :
    (ofText? text).textOrNull? = some text := by
  cases text <;> rfl

@[simp] theorem corner?_cornerJson (p : Int32 × Int32) : (cornerJson p).corner? = some p := by
  simp [cornerJson, corner?, int32?_toInt]

@[simp] theorem single?_ofSingle (x : Single) :
    (ofSingle x).single? = if x.isFinite then some x else none := by
  unfold ofSingle
  split
  · exact congrArg some (Binary.convert_convert Format.single_isWithin_double x)
  · rfl

end Json

/-! ## Records without inline operations -/

theorem Choice.ofJson?_toJson (c : Choice) : Choice.ofJson? c.toJson = some c := by
  have hdistinct : Distinct [("label", string c.label), ("event", string c.event)] := by
    simp [Distinct]
  simp only [toJson, ofMembers, ofJson?, parts?, Option.bind_eq_bind, Option.bind_some,
    Parts.fields?_sortMembers hdistinct]
  simp [Parts.fields?, required?, text?]

theorem Cue.ofJson?_ofMembers {kind : String} {rest : List (String × Json)}
    (hkind : kind ∈ kinds) (hrest : Distinct (("kind", .string kind) :: rest)) :
    Cue.ofJson? (.ofMembers (("kind", .string kind) :: rest)) =
      Cue.ofParts? kind (.named rest) := by
  obtain ⟨parts, hfields, htag⟩ := Parts.exists_tag?_sortMembers hrest (choice? true kinds)
  rw [choice?, if_pos hkind] at htag
  simp only [ofMembers, ofJson?, parts?, Option.bind_eq_bind, Option.bind_some]
  rw [htag, Option.map_some, Option.bind_some]
  exact ofParts?_congr hfields kind

/-- Whether the numbers of a cue are finite. -/
def Cue.hasFiniteNumbers : Cue → Bool
  | move x y _ => x.isFinite && y.isFinite
  | _ => true

theorem Cue.ofJson?_toJson (cue : Cue) :
    Cue.ofJson? cue.toJson = if cue.hasFiniteNumbers then some cue else none := by
  cases cue <;> rw [toJson, ofJson?_ofMembers (by simp [kinds]) (by simp [Distinct])]
  case move x y set =>
    by_cases hx : x.isFinite <;> by_cases hy : y.isFinite <;>
      simp [ofParts?, Parts.fields?, required?, withDefault?, hasFiniteNumbers, hx, hy]
  case setDirection d => cases d <;> rfl
  all_goals simp [ofParts?, Parts.fields?, required?, withDefault?, hasFiniteNumbers]

theorem MusicAction.ofJson?_ofMembers {kind : String} {rest : List (String × Json)}
    (hkind : kind ∈ kinds) (hrest : Distinct (("kind", .string kind) :: rest)) :
    MusicAction.ofJson? (.ofMembers (("kind", .string kind) :: rest)) =
      MusicAction.ofParts? kind (.named rest) := by
  obtain ⟨parts, hfields, htag⟩ := Parts.exists_tag?_sortMembers hrest (choice? true kinds)
  rw [choice?, if_pos hkind] at htag
  simp only [ofMembers, ofJson?, parts?, Option.bind_eq_bind, Option.bind_some]
  rw [htag, Option.map_some, Option.bind_some]
  exact ofParts?_congr hfields kind

theorem MusicAction.ofJson?_toJson (action : MusicAction) :
    MusicAction.ofJson? action.toJson = some action := by
  cases action <;> rw [toJson, ofJson?_ofMembers (by simp [kinds]) (by simp [Distinct])]
  all_goals simp [ofParts?, Parts.fields?, required?, withDefault?]

/-! ## Operations -/

namespace Operation

theorem read?_ofMembers (indexed : Bool) {opcode : String} {rest : List (String × Json)}
    (hopcode : opcode ∈ opcodes) (hrest : Distinct (("op", .string opcode) :: rest)) :
    read? indexed (.ofMembers (("op", .string opcode) :: rest)) =
      ofParts? opcode ((Parts.named rest).map Part.of) := by
  obtain ⟨parts, hfields, htag⟩ := Parts.exists_tag?_sortMembers hrest (choice? indexed opcodes)
  rw [choice?, if_pos hopcode] at htag
  rw [read?_eq, tagged?, ofMembers, parts?, Option.bind_some, htag, Option.map_some,
    Option.bind_some]
  refine ofParts?_congr (fun names => ?_) opcode
  rw [Parts.fields?_map, Parts.fields?_map, hfields]

/-- Whether the numbers of an operation are finite, apart from those of inline operations. -/
def hasFiniteNumbers : Operation → Bool
  | entity cue => cue.hasFiniteNumbers
  | _ => true

/-! The numbers of 64 bits are kept abstract, so that nothing computes with them. -/

theorem ofParts?_wait {j : Json} {d : UInt64} (hd : j.word? = some d) :
    ofParts? "wait" ((Parts.named [("duration_ms", j)]).map Part.of) = some (wait d) := by
  simp [ofParts?, Parts.fields?, Parts.map, required?, hd]

theorem fade?_duration (make : UInt64 → Operation) {j : Json} {d : UInt64}
    (hd : j.word? = some d) :
    fade? make ((Parts.named [("duration_ms", j)]).map Part.of) = some (make d) := by
  simp [fade?, Parts.fields?, Parts.map, withDefault?, hd]

theorem tileReplace?_fill (t : TileFill) {j : Json} (hlayer : j.word? = some t.layer) :
    tileReplace? ((Parts.named [("layer", j), ("from", cornerJson t.start),
      ("to", cornerJson t.stop), ("atlas", .string t.atlas),
      ("rotation", .integer t.rotation.toInt)]).map Part.of) = some (tileReplace t) := by
  simp [tileReplace?, Parts.fields?, Parts.map, required?, withDefault?, hlayer]

theorem inlined?_inlinedJson {ops : List Operation}
    (h : readItems? true (listJson ops) =
      if passesAll hasFiniteNumbers ops then some ops else none) :
    Part.inlined? (Part.of (inlinedJson (some ops))) =
      if passesAll hasFiniteNumbers ops then some (some ops) else none := by
  rw [Part.inlined?, Part.of, inlinedJson, readList?, h]
  cases passesAll hasFiniteNumbers ops <;> rfl

theorem passes_flagIf (flag : String) (event : Option String)
    (inlined : Option (List Operation)) :
    (flagIf flag event inlined).passes hasFiniteNumbers =
      inlined.all (passesAll hasFiniteNumbers) := by
  cases inlined <;> simp [passes, hasFiniteNumbers]

mutual

/-- An operation is read back as it was written exactly if all its numbers are finite. -/
theorem read?_toJson (indexed : Bool) (op : Operation) :
    read? indexed op.toJson = if op.passes hasFiniteNumbers then some op else none := by
  cases op <;> rw [toJson] <;> try rw [tagged]
  all_goals rw [read?_ofMembers indexed (by simp [opcodes]) (by simp [Distinct])]
  case wait d =>
    rw [ofParts?_wait (word?_toNat d)]
    rfl
  case fadeIn d | fadeOut d =>
    simp only [ofParts?, fade?_duration _ (word?_toNat d)]
    simp [passes, hasFiniteNumbers]
  case tileReplace t =>
    simp only [ofParts?, tileReplace?_fill t (word?_toNat t.layer)]
    simp [passes, hasFiniteNumbers]
  case flagIf flag event inlined =>
    have hinlined : Part.inlined? (Part.of (inlinedJson inlined)) =
        if inlined.all (passesAll hasFiniteNumbers) then some inlined else none := by
      cases inlined with
      | none => rfl
      | some ops => exact inlined?_inlinedJson (readItems?_listJson true ops)
    simp only [ofParts?, flagIf?, passes_flagIf]
    by_cases hfinite : inlined.all (passesAll hasFiniteNumbers) <;>
      simp [Parts.fields?, Parts.map, required?, withDefault?, hinlined, hfinite]
  case entity cue =>
    by_cases hfinite : cue.hasFiniteNumbers <;>
      simp [ofParts?, Parts.fields?, Parts.map, required?, Cue.ofJson?_toJson, passes,
        hasFiniteNumbers, hfinite]
  all_goals
    simp [ofParts?, flagged?, say?, Parts.fields?, Parts.map, required?, withDefault?,
      Choice.ofJson?_toJson, MusicAction.ofJson?_toJson, passes, hasFiniteNumbers]

theorem readItems?_listJson (indexed : Bool) (ops : List Operation) :
    readItems? indexed (listJson ops) =
      if passesAll hasFiniteNumbers ops then some ops else none := by
  cases ops with
  | nil => rfl
  | cons op ops =>
      rw [listJson, readItems?, read?_toJson, readItems?_listJson, passesAll]
      cases op.passes hasFiniteNumbers <;> cases passesAll hasFiniteNumbers ops <;> rfl

end

/-- Operations with finite numbers are read back as they were written; so to write what was read
from a file and to read it again changes nothing. -/
theorem written_read_back :
    (∀ op : Operation, op.passes hasFiniteNumbers = true → ofJson? op.toJson = some op) ∧
      ∀ (j : Json) (op : Operation), ofJson? j = some op → op.passes hasFiniteNumbers = true →
        (ofJson? j).bind (fun op => ofJson? op.toJson) = ofJson? j := by
  have back (op : Operation) (hfinite : op.passes hasFiniteNumbers = true) :
      ofJson? op.toJson = some op := by rw [ofJson?, read?_toJson, if_pos hfinite]
  refine ⟨back, fun j op hread hfinite => ?_⟩
  rw [hread, Option.bind_some, back op hfinite]

/-- A call that has its fields in any order, leaves out those with defaults and gives the kind of an
inline operation by its position. -/
def signpost : Json :=
  .object [("inline", .array [
      .array [.integer 5,
        .object [("y", .integer (-2)), ("x", .integer 3), ("kind", .string "move")]],
      .object [("op", .string "fade_in")]]),
    ("flag", .string "met"), ("op", .string "flag_if")]

/-- What the call is read as. -/
def signpostRead : Operation :=
  flagIf "met" none (some [entity (.move (.ofInt 3) (.ofInt (-2)) false), fadeIn defaultFadeMs])

theorem written_read_back_signpost :
    ofJson? signpost = some signpostRead ∧ signpostRead.passes hasFiniteNumbers = true ∧
      ofJson? signpostRead.toJson = some signpostRead ∧
      (ofJson? signpost).bind (fun op => ofJson? op.toJson) = ofJson? signpost :=
  have hread : ofJson? signpost = some signpostRead := by rfl
  have hfinite : signpostRead.passes hasFiniteNumbers = true := by rfl
  ⟨hread, hfinite, written_read_back.1 signpostRead hfinite,
    written_read_back.2 signpost signpostRead hread hfinite⟩

end Operation

end Cutscene
