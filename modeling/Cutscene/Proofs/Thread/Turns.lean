import Cutscene.Proofs.Thread.Custody
import Cutscene.Proofs.Thread.Spawning

/-!
# The turns of a tick

Threads are created behind all others and with rising numbers, so a tick resumes them in the order
of their numbers: whoever is resumed in a later turn has a greater number (`Rising.id_lt`), and no
thread is resumed in two turns (`Rising.eq_of_resumedAt`). This holds of a tick after whatever was
done with the scheduler before (`rising_run`).
-/

namespace Cutscene

namespace Scheduler

variable {σ φ α κ : Type} {m : Machine σ φ α κ} {c b : Nat × Scheduler κ × σ} {t t' : Thread κ}
  {n n' : Nat}

/-- The threads to be resumed have rising numbers, and new ones will have greater ones. -/
structure Rising (c : Nat × Scheduler κ × σ) : Prop where
  ids : ((ahead c).map (·.id)).Pairwise (· < ·)
  lt : ∀ t ∈ ahead c, t.id < c.2.1.nextId

/-- The threads to be resumed all have numbers beyond one that was given before. -/
structure Beyond (id : Nat) (c : Nat × Scheduler κ × σ) : Prop where
  ahead : ∀ t ∈ ahead c, id < t.id
  nextId : id < c.2.1.nextId

theorem turns_add (m : Machine σ φ α κ) (n k : Nat) (c : Nat × Scheduler κ × σ) :
    turns m (n + k) c = (turns m n c).bind (turns m k) := by
  induction k with
  | zero => exact (Option.bind_fun_some _).symm
  | succ k ih =>
      show (turns m (n + k) c).bind _ = _
      rw [ih, Option.bind_assoc]
      rfl

theorem Rising.turn (h : Rising c) (hturn : turn m c.1 c.2.1 c.2.2 = some b) :
    Rising b ∧ ∀ t, c.2.1.threads[c.1]? = some t → Beyond t.id b := by
  obtain ⟨t₀, rest, created, hahead, hafter, hids, hnext⟩ := exists_created hturn
  have hcreated : ∀ u ∈ created, c.2.1.nextId ≤ u.id ∧ u.id < b.2.1.nextId := by
    intro u hu
    have hmem := List.mem_map_of_mem (f := (·.id)) hu
    rw [hids, List.mem_range'_1, ← hnext] at hmem
    exact hmem
  have hrising := h.ids
  rw [hahead, List.map_cons, List.pairwise_cons] at hrising
  have hlt : ∀ u ∈ t₀ :: rest, u.id < c.2.1.nextId := hahead ▸ h.lt
  refine ⟨⟨?_, fun u hu => ?_⟩, fun t ht => ⟨fun u hu => ?_, ?_⟩⟩
  · rw [hafter, List.map_append, List.pairwise_append, hids]
    refine ⟨hrising.2, List.pairwise_lt_range', fun i hi j hj => ?_⟩
    obtain ⟨u, hu, rfl⟩ := List.mem_map.1 hi
    exact (hlt u (List.mem_cons_of_mem _ hu)).trans_le (List.mem_range'_1.1 hj).1
  · rw [hafter] at hu
    rcases List.mem_append.1 hu with hu | hu
    · rw [hnext]
      exact Nat.lt_add_right _ (hlt u (List.mem_cons_of_mem _ hu))
    · exact (hcreated u hu).2
  · rw [← head?_ahead, hahead] at ht
    obtain rfl := Option.some.inj ht
    rw [hafter] at hu
    rcases List.mem_append.1 hu with hu | hu
    · exact hrising.1 _ (List.mem_map_of_mem hu)
    · exact (hlt _ List.mem_cons_self).trans_le (hcreated u hu).1
  · rw [← head?_ahead, hahead] at ht
    obtain rfl := Option.some.inj ht
    rw [hnext]
    exact Nat.lt_add_right _ (hlt _ List.mem_cons_self)

theorem Rising.turns (h : Rising c) (hb : turns m n c = some b) : Rising b := by
  induction n generalizing b with
  | zero => exact Option.some.inj hb ▸ h
  | succ n ih =>
      obtain ⟨b', hbefore, hturn⟩ := Option.bind_eq_some_iff.1 hb
      exact ((ih hbefore).turn hturn).1

theorem Beyond.turns {id : Nat} (h : Beyond id c) (hb : turns m n c = some b) : Beyond id b := by
  induction n generalizing b with
  | zero => exact Option.some.inj hb ▸ h
  | succ n ih =>
      obtain ⟨b', hbefore, hturn⟩ := Option.bind_eq_some_iff.1 hb
      have h' := ih hbefore
      obtain ⟨t₀, rest, created, hahead, hafter, hids, hnext⟩ := exists_created hturn
      refine ⟨fun u hu => ?_, by rw [hnext]; exact Nat.lt_add_right _ h'.nextId⟩
      rw [hafter] at hu
      rcases List.mem_append.1 hu with hu | hu
      · exact h'.ahead u (hahead ▸ List.mem_cons_of_mem _ hu)
      · have hmem := List.mem_map_of_mem (f := (·.id)) hu
        rw [hids, List.mem_range'_1] at hmem
        exact h'.nextId.trans_le hmem.1

/-- A thread that is resumed later has a greater number. -/
theorem Rising.id_lt (h : Rising c) (ht : ResumedAt m c n t) (ht' : ResumedAt m c n' t')
    (hlt : n < n') : t.id < t'.id := by
  obtain ⟨b, hb, hthread⟩ := ht
  obtain ⟨b', hb', hthread'⟩ := ht'
  obtain ⟨k, rfl⟩ := Nat.exists_eq_add_of_lt hlt
  -- between the two there is the turn in which the first one is resumed
  rw [Nat.add_assoc, turns_add, hb, Option.bind_some, turns_succ] at hb'
  obtain ⟨b₁, hturn, hlater⟩ := Option.bind_eq_some_iff.1 hb'
  have hbeyond := (((h.turns hb).turn hturn).2 t hthread).turns hlater
  rw [← head?_ahead] at hthread'
  exact hbeyond.ahead t' (List.mem_of_head? hthread')

/-- No thread is resumed twice in a tick. -/
theorem Rising.eq_of_resumedAt (h : Rising c) (ht : ResumedAt m c n t)
    (ht' : ResumedAt m c n' t') (hid : t'.id = t.id) : n' = n := by
  rcases Nat.lt_trichotomy n' n with hlt | heq | hlt
  · exact absurd hid (h.id_lt ht' ht hlt).ne
  · exact heq
  · exact absurd hid (h.id_lt ht ht' hlt).ne'

/-- At the beginning of a tick, after whatever was done, the threads have rising numbers. -/
theorem rising_run (m : Machine σ φ α κ) (watchdog : Watchdog) (s : σ)
    (actions : List (Custody.Action σ φ α)) :
    let o := Custody.run m watchdog s actions
    Rising (0, o.scheduler, o.state) := by
  have hheld := Custody.run_held m watchdog s actions
  rw [Custody.run_watched]
  refine ⟨?_, fun t ht => ?_⟩
  · have hids := hheld.ids
    simpa [ahead, Custody.bare, bare, Thread.bare, Function.comp_def] using hids
  · obtain ⟨u, hu, rfl⟩ := List.mem_map.1 (List.mem_of_mem_drop ht)
    exact hheld.ids_lt u hu

end Scheduler

end Cutscene
