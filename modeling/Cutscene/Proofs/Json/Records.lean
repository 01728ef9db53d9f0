import Mathlib.Data.List.Nodup
import Cutscene.Json.Parts

/-!
# Records as they are written

A record is written from a list of members with distinct names, which `Json.ofMembers` sorts. The
order does not matter to a reader: it finds the members as they were given, whether the record has
no tag (`Parts.fields?_sortMembers`) or one (`Parts.exists_tag?_sortMembers`).
-/

namespace Cutscene.Json

variable {α β γ : Type} {members rest : List (String × α)} {name tag : String}

/-! ## Sorting -/

/-- No two members have the same name. -/
def Distinct (members : List (String × α)) : Prop := (members.map Prod.fst).Nodup

theorem Distinct.perm {others : List (String × α)} (h : Distinct members)
    (hperm : others.Perm members) : Distinct others := (hperm.map Prod.fst).nodup_iff.2 h

theorem Distinct.filter (h : Distinct members) (p : String × α → Bool) :
    Distinct (members.filter p) := h.sublist (List.filter_sublist.map Prod.fst)

theorem insertMember_perm {value : α} (h : name ∉ members.map Prod.fst) :
    (insertMember name value members).Perm ((name, value) :: members) := by
  induction members with
  | nil => exact .refl _
  | cons m ms ih =>
      rw [List.map_cons, List.mem_cons, not_or] at h
      rw [insertMember, if_neg (Ne.symm h.1)]
      split
      · exact .refl _
      · exact ((ih h.2).cons m).trans (.swap ..)

theorem foldl_insertMember_perm (members : List (String × α)) {sorted : List (String × α)}
    (h : Distinct (members ++ sorted)) :
    (members.foldl (fun sorted m => insertMember m.1 m.2 sorted) sorted).Perm
      (members ++ sorted) := by
  induction members generalizing sorted with
  | nil => exact .refl _
  | cons m ms ih =>
      have hnew : m.1 ∉ (ms ++ sorted).map Prod.fst := (List.nodup_cons.1 h).1
      rw [List.map_append, List.mem_append, not_or] at hnew
      have hinsert : (ms ++ insertMember m.1 m.2 sorted).Perm (m :: ms ++ sorted) :=
        ((insertMember_perm hnew.2).append_left ms).trans List.perm_middle
      exact (ih (h.perm hinsert)).trans hinsert

theorem sortMembers_perm (h : Distinct members) : (sortMembers members).Perm members := by
  have hperm := @foldl_insertMember_perm _ members [] (by rwa [List.append_nil])
  rwa [List.append_nil] at hperm

/-! ## Finding members by name -/

theorem lookup_eq_none (h : name ∉ members.map Prod.fst) : members.lookup name = none :=
  List.lookup_eq_none_iff.2 fun m hm => by
    simpa using fun heq : name = m.1 => h (heq ▸ List.mem_map_of_mem hm)

theorem lookup_eq_some_iff (h : Distinct members) {value : α} :
    members.lookup name = some value ↔ (name, value) ∈ members := by
  induction members with
  | nil => simp
  | cons m ms ih =>
      obtain ⟨n, v⟩ := m
      obtain ⟨hnew, hms⟩ := List.nodup_cons.1 h
      rcases eq_or_ne name n with rfl | hne
      · have : (name, value) ∉ ms := fun hmem => hnew (List.mem_map.2 ⟨_, hmem, rfl⟩)
        simp [this, eq_comm]
      · simp [List.lookup_cons, beq_false_of_ne hne, ih hms, hne]

theorem lookup_perm {others : List (String × α)} (h : Distinct members)
    (hperm : others.Perm members) : others.lookup name = members.lookup name :=
  Option.ext fun value => by
    rw [lookup_eq_some_iff h, lookup_eq_some_iff (h.perm hperm), hperm.mem_iff]

theorem filter_eq_lookup (h : Distinct members) :
    members.filter (·.1 == name) = (members.lookup name).toList.map (name, ·) := by
  induction members with
  | nil => rfl
  | cons m ms ih =>
      obtain ⟨n, v⟩ := m
      obtain ⟨hnew, hms⟩ := List.nodup_cons.1 h
      rcases eq_or_ne name n with rfl | hne
      · simp [ih hms, lookup_eq_none hnew]
      · simp [List.lookup_cons, beq_false_of_ne hne, ih hms, hne.symm]

theorem lookup_filter_ne (h : Distinct members) (hne : name ≠ tag) :
    (members.filter (·.1 != tag)).lookup name = members.lookup name :=
  Option.ext fun value => by simp [lookup_eq_some_iff, h, h.filter, hne]

theorem lookup_filter_self (h : Distinct members) :
    (members.filter (·.1 != tag)).lookup tag = none :=
  Option.eq_none_iff_forall_ne_some.2 fun value => by simp [lookup_eq_some_iff, h.filter]

namespace Parts

/-! ## Fields and tags -/

/-- The parts of a record, each replaced. -/
def map (f : α → β) : Parts α → Parts β
  | named members => .named (members.map fun m => (m.1, f m.2))
  | listed items => .listed (items.map f)

theorem map_map (f : α → β) (g : β → γ) (parts : Parts α) :
    (parts.map f).map g = parts.map (g ∘ f) := by
  cases parts <;> simp [map]

theorem eq_nil_of_fields?_nil {parts : Parts α} {fields : List (Option α)}
    (h : parts.fields? [] = some fields) : fields = [] := by
  cases parts with
  | named members => exact (Option.some.inj h).symm
  | listed items => cases items <;> simp_all [fields?]

theorem fields?_map (f : α → β) (names : List String) (parts : Parts α) :
    (parts.map f).fields? names = (parts.fields? names).map (List.map (Option.map f)) := by
  cases parts with
  | named members =>
      simp only [map, fields?, List.filter_map, Function.comp_def]
      induction names with
      | nil => rfl
      | cons name names ih =>
          rw [List.mapM_cons, List.mapM_cons, ih]
          generalize members.filter (·.1 == name) = found
          generalize (List.mapM _ names : Option (List (Option α))) = others
          rcases found with _ | ⟨m, _ | _⟩ <;> cases others <;> rfl
  | listed items =>
      simp only [map, fields?, List.length_map]
      split
      · rfl
      · simp

theorem tag?_map (f : α → β) (read : β → Option γ) (parts : Parts α) :
    (parts.map f).tag? tag read =
      (parts.tag? tag fun a => read (f a)).map fun t => (t.1, t.2.map f) := by
  cases parts with
  | named members =>
      simp only [map, tag?, List.filter_map, Function.comp_def]
      generalize members.filter (·.1 == tag) = found
      rcases found with _ | ⟨m, _ | _⟩
      · rfl
      · cases h : read (f m.2) <;> simp [h]
      · rfl
  | listed items =>
      cases items with
      | nil => rfl
      | cons first rest => cases h : read (f first) <;> simp [map, tag?, h]

/-- A tag that is found has a value, the same for every reader and the only one of its name. -/
theorem exists_of_tag? {read : α → Option β} {parts rest : Parts α} {b : β}
    (h : parts.tag? tag read = some (b, rest)) :
    ∃ a, read a = some b ∧ (∀ other : α → Option β,
      parts.tag? tag other = (other a).map fun t => (t, rest)) ∧
      ∀ members c, parts = .named members → (tag, c) ∈ members → c = a := by
  cases parts with
  | named members =>
      rw [tag?] at h
      split at h
      case h_1 m hfound =>
        obtain ⟨b', hb, heq⟩ := Option.map_eq_some_iff.1 h
        obtain ⟨rfl, rfl⟩ := Prod.mk.inj heq
        refine ⟨m.2, hb, fun other => by rw [tag?, hfound], ?_⟩
        rintro _ c ⟨⟩ hc
        have hmem : (tag, c) ∈ members.filter (·.1 == tag) := List.mem_filter.2 ⟨hc, by simp⟩
        rw [hfound, List.mem_singleton] at hmem
        exact hmem ▸ rfl
      case h_2 => cases h
  | listed items =>
      cases items with
      | nil => cases h
      | cons first others =>
          obtain ⟨b', hb, heq⟩ := Option.map_eq_some_iff.1 h
          obtain ⟨rfl, rfl⟩ := Prod.mk.inj heq
          exact ⟨first, hb, fun other => rfl, by rintro _ c ⟨⟩⟩

/-- A reader finds the fields that members give. -/
theorem fields?_named (h : Distinct members) (names : List String) :
    (Parts.named members).fields? names = some (names.map fun name => members.lookup name) := by
  induction names with
  | nil => rfl
  | cons name names ih =>
      rw [fields?] at ih
      rw [fields?, List.mapM_cons, ih, filter_eq_lookup h, List.map_cons]
      cases members.lookup name <;> rfl

/-- A reader finds the tag that members give. -/
theorem tag?_named (h : Distinct members) (read : α → Option β) :
    (Parts.named members).tag? tag read = ((members.lookup tag).bind read).map fun t =>
      (t, .named (members.filter (·.1 != tag))) := by
  rw [tag?, filter_eq_lookup h]
  cases members.lookup tag <;> rfl

/-- A record without a tag is read from its members as they were given. -/
theorem fields?_sortMembers (h : Distinct members) (names : List String) :
    (Parts.named (sortMembers members)).fields? names = (Parts.named members).fields? names := by
  have hperm := sortMembers_perm h
  rw [fields?_named (h.perm hperm), fields?_named h]
  simp only [lookup_perm h hperm]

/-- A record with a tag is read from the tag and the other members as they were given. -/
theorem exists_tag?_sortMembers {a : α} (h : Distinct ((tag, a) :: rest)) (read : α → Option β) :
    ∃ parts : Parts α, (∀ names, parts.fields? names = (Parts.named rest).fields? names) ∧
      (Parts.named (sortMembers ((tag, a) :: rest))).tag? tag read =
        (read a).map fun t => (t, parts) := by
  have hperm := sortMembers_perm h
  have hsorted := h.perm hperm
  obtain ⟨hnew, hrest⟩ := List.nodup_cons.1 h
  refine ⟨.named ((sortMembers ((tag, a) :: rest)).filter (·.1 != tag)), fun names => ?_, ?_⟩
  · rw [fields?_named (hsorted.filter _), fields?_named hrest]
    congr 2
    funext name
    rcases eq_or_ne name tag with rfl | hne
    · rw [lookup_filter_self hsorted, lookup_eq_none hnew]
    · rw [lookup_filter_ne hsorted hne, lookup_perm h hperm, List.lookup_cons, beq_false_of_ne hne]
  · rw [tag?_named hsorted, lookup_perm h hperm, List.lookup_cons_self]
    rfl

end Parts

end Cutscene.Json
