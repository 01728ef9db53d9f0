import Mathlib.Logic.Hydra
import Cutscene.Proofs.Thread.Visits
import Cutscene.Thread.Puppet

/-!
# Threads that ask for threads

A resume is bounded, but a tick resumes also the threads that are asked for on its way, and these
may ask for more. A tick is one turn after the other (`turns`), and every thread that is to be
resumed gets its turn, those created on the way after those that were there (`exists_created`). So
what keeps a tick going is a chain of threads without an end, each created in the turn of the one
before (`Begets`), and nothing else does: without such a chain, the threads still to be resumed are
cut back like the heads of a hydra (`Relation.CutExpand`), each by those that it creates, and a tick
ends (`tick_ends_iff`). A script that asks for itself makes such a chain (`breeding_never_ends`).
-/

namespace Cutscene

namespace Scheduler

variable {σ φ α κ : Type}

section

variable (m : Machine σ φ α κ)

/-- The threads that are still to be resumed in a tick that has come to a position. -/
def ahead (c : Nat × Scheduler κ × σ) : List (Thread κ) := c.2.1.threads.drop c.1

/-- What there is after some turns, if a tick takes so many. -/
def turns : Nat → Nat × Scheduler κ × σ → Option (Nat × Scheduler κ × σ)
  | 0, c => some c
  | n + 1, c => (turns n c).bind fun c' => turn m c'.1 c'.2.1 c'.2.2

/-- In a tick a thread is resumed after some turns. -/
def ResumedAt (c : Nat × Scheduler κ × σ) (n : Nat) (t : Thread κ) : Prop :=
  ∃ b, turns m n c = some b ∧ b.2.1.threads[b.1]? = some t

/-- The thread that is resumed in a later turn was created in an earlier one. -/
def Begets (c : Nat × Scheduler κ × σ) (i j : Nat) : Prop :=
  i < j ∧ ∃ before after later t, turns m i c = some before ∧ turns m (i + 1) c = some after ∧
    turns m j c = some later ∧ later.2.1.threads[later.1]? = some t ∧
    before.2.1.nextId ≤ t.id ∧ t.id < after.2.1.nextId

end

variable {m : Machine σ φ α κ} {c c' : Nat × Scheduler κ × σ}

/-! ## Turns -/

theorem turn_eq_none_iff : turn m c.1 c.2.1 c.2.2 = none ↔ ahead c = [] := by
  rw [ahead, List.drop_eq_nil_iff, ← List.getElem?_eq_none_iff]
  unfold turn
  cases c.2.1.threads[c.1]? with
  | none => simp
  | some t =>
      simp only [reduceCtorEq, iff_false]
      split <;> simp

/-- A turn takes the first thread that is to be resumed, and those that it creates come last. -/
theorem exists_created (h : turn m c.1 c.2.1 c.2.2 = some c') :
    ∃ t rest created, ahead c = t :: rest ∧ ahead c' = rest ++ created ∧
      created.map (·.id) = List.range' c.2.1.nextId created.length ∧
      c'.2.1.nextId = c.2.1.nextId + created.length := by
  obtain ⟨index, sch, s⟩ := c
  cases hget : sch.numbered.threads[index]? with
  | none =>
      have hnone : sch.threads[index]? = none := by
        rw [← sch.bare_numbered]
        simp [bare, hget]
      simp [turn, hnone] at h
  | some t =>
      obtain ⟨v, sch', w', hturn, hv⟩ := exists_visit m hget (⟨s, [], 0⟩ : Watched σ φ α)
      have hwatched := turn_watched m sch.numbered (⟨s, [], 0⟩ : Watched σ φ α) index
      rw [bare_numbered, hturn] at hwatched
      obtain rfl := Option.some.inj (h.symm.trans hwatched)
      obtain ⟨hlt, hthread⟩ := List.getElem?_eq_some_iff.1 hget
      have hthreads : sch.threads = sch.numbered.threads.map Thread.bare :=
        congrArg Scheduler.threads sch.bare_numbered.symm
      -- the threads in front of the next position are those in front of this one and the resumed
      -- thread, if it stays
      have hfront : (sch.numbered.threads.take index ++ v.stay?.toList).length =
          index + v.stay?.toList.length := by
        rw [List.length_append, List.length_take_of_le hlt.le]
      have hrest : sch'.threads.drop (index + v.stay?.toList.length) =
          sch.numbered.threads.drop (index + 1) ++ v.created := by
        rw [hv.scheduler, ← List.append_assoc, List.drop_left' hfront]
      refine ⟨t.bare, (sch.numbered.threads.drop (index + 1)).map Thread.bare,
        v.created.map Thread.bare, ?_, ?_, ?_, ?_⟩
      · show sch.threads.drop index = _
        rw [hthreads, ← List.map_drop, List.drop_eq_getElem_cons hlt, List.map_cons, hthread]
      · show (sch'.threads.map Thread.bare).drop _ = _
        rw [← List.map_drop, hrest, List.map_append]
      · rw [List.map_map, List.length_map]
        exact hv.ids
      · rw [List.length_map]
        show sch'.nextId = _
        rw [hv.scheduler]
        rfl

/-- After some turns, as many threads have been resumed or are to be resumed as there were at first
and have been created since. -/
theorem length_ahead_turns {n : Nat} (h : turns m n c = some c') :
    n + (ahead c').length + c.2.1.nextId = (ahead c).length + c'.2.1.nextId := by
  induction n generalizing c' with
  | zero =>
      obtain rfl := Option.some.inj h
      omega
  | succ n ih =>
      obtain ⟨c₁, hbefore, hturn⟩ := Option.bind_eq_some_iff.1 h
      obtain ⟨t, rest, created, hahead, hafter, -, hnext⟩ := exists_created hturn
      have hlength := ih hbefore
      rw [hahead, List.length_cons] at hlength
      rw [hafter, List.length_append, hnext]
      omega

theorem head?_ahead (b : Nat × Scheduler κ × σ) : (ahead b).head? = b.2.1.threads[b.1]? := by
  rw [ahead, List.head?_drop]

/-- Every thread that is to be resumed is resumed in its turn. -/
theorem resumedAt_of_ahead {b : Nat × Scheduler κ × σ} {n q : Nat} {t : Thread κ}
    (hb : turns m n c = some b) (ht : (ahead b)[q]? = some t) : ResumedAt m c (n + q) t := by
  induction q generalizing n b with
  | zero => exact ⟨b, hb, by rw [← head?_ahead, List.head?_eq_getElem?, ht]⟩
  | succ q ih =>
      cases hturn : turn m b.1 b.2.1 b.2.2 with
      | none =>
          rw [turn_eq_none_iff] at hturn
          simp [hturn] at ht
      | some b' =>
          obtain ⟨t₀, rest, created, hahead, hafter, -⟩ := exists_created hturn
          have hb' : turns m (n + 1) c = some b' := by
            show (turns m n c).bind _ = _
            rw [hb]
            exact hturn
          have ht' : (ahead b')[q]? = some t := by
            rw [hahead, List.getElem?_cons_succ] at ht
            obtain ⟨hlt, -⟩ := List.getElem?_eq_some_iff.1 ht
            rwa [hafter, List.getElem?_append_left hlt]
          have hresumed := ih hb' ht'
          rwa [Nat.add_right_comm] at hresumed

/-! ## Ticks that end -/

theorem Runs.of_turns {n : Nat} (h : turns m n c = some c') {r : Scheduler κ × σ}
    (hrest : Runs m c'.1 c'.2.1 c'.2.2 r) : Runs m c.1 c.2.1 c.2.2 r := by
  induction n generalizing c' with
  | zero =>
      obtain rfl := Option.some.inj h
      exact hrest
  | succ n ih =>
      obtain ⟨c₁, hbefore, hturn⟩ := Option.bind_eq_some_iff.1 h
      exact ih hbefore (.more hturn hrest)

theorem turns_succ (m : Machine σ φ α κ) (n : Nat) (c : Nat × Scheduler κ × σ) :
    turns m (n + 1) c = (turn m c.1 c.2.1 c.2.2).bind (turns m n) := by
  induction n with
  | zero => simp [turns]
  | succ n ih =>
      rw [turns, ih, Option.bind_assoc]
      rfl

/-- A tick that ends takes some turns, and then no thread is to be resumed any more. -/
theorem Runs.exists_turns {index : Nat} {sch : Scheduler κ} {s : σ} {r : Scheduler κ × σ}
    (h : Runs m index sch s r) : ∃ n last, turns m n (index, sch, s) = some (last, r) ∧
      turn m last r.1 r.2 = none := by
  induction h with
  | done hturn => exact ⟨0, _, rfl, hturn⟩
  | more hturn _ ih =>
      obtain ⟨n, last, hturns, hend⟩ := ih
      refine ⟨n + 1, last, ?_, hend⟩
      rw [turns_succ, hturn]
      exact hturns

/-- A tick that does not end goes on for ever. -/
theorem exists_forever (h : ¬∃ r, Runs m c.1 c.2.1 c.2.2 r) :
    ∃ cs : Nat → Nat × Scheduler κ × σ, ∀ n, turns m n c = some (cs n) := by
  have hsome : ∀ n, ∃ c', turns m n c = some c' := by
    intro n
    induction n with
    | zero => exact ⟨c, rfl⟩
    | succ n ih =>
        obtain ⟨c', hc'⟩ := ih
        cases hturn : turn m c'.1 c'.2.1 c'.2.2 with
        | none => exact absurd ⟨_, Runs.of_turns hc' (.done hturn)⟩ h
        | some next => exact ⟨next, by rw [turns, hc']; exact hturn⟩
  exact ⟨fun n => (hsome n).choose, fun n => (hsome n).choose_spec⟩

/-! ## Chains of threads -/

section

variable {cs : Nat → Nat × Scheduler κ × σ}

theorem turn_of_forever (h : ∀ n, turns m n c = some (cs n)) (n : Nat) :
    turn m (cs n).1 (cs n).2.1 (cs n).2.2 = some (cs (n + 1)) := by
  have hnext := h (n + 1)
  rwa [turns, h n] at hnext

theorem resumed_of_forever (h : ∀ n, turns m n c = some (cs n)) {n q : Nat} {t : Thread κ}
    (ht : (ahead (cs n))[q]? = some t) : (cs (n + q)).2.1.threads[(cs (n + q)).1]? = some t := by
  obtain ⟨b, hb, hthread⟩ := resumedAt_of_ahead (h n) ht
  rwa [← Option.some.inj ((h (n + q)).symm.trans hb)] at hthread

/-- The turns of the threads that are to be resumed. -/
def heads (cs : Nat → Nat × Scheduler κ × σ) (n : Nat) : Multiset Nat :=
  List.range' n (ahead (cs n)).length

/-- A turn takes one head away and puts those in its place that are created in it. -/
theorem cutExpand_heads (h : ∀ n, turns m n c = some (cs n)) (n : Nat) :
    Relation.CutExpand (fun j i => Begets m c i j) (heads cs (n + 1)) (heads cs n) := by
  obtain ⟨t₀, rest, created, hahead, hafter, hids, hnext⟩ :=
    exists_created (turn_of_forever h n)
  refine ⟨(List.range' (n + 1 + rest.length) created.length : List Nat), n, ?_, ?_⟩
  · intro j hj
    obtain ⟨hle, hlt⟩ := List.mem_range'_1.1 (Multiset.mem_coe.1 hj)
    obtain ⟨q, rfl⟩ := Nat.exists_eq_add_of_le hle
    have hq : q < created.length := by omega
    have hmem := List.mem_map_of_mem (f := (·.id)) (List.getElem_mem hq)
    rw [hids, List.mem_range'_1] at hmem
    have hwaits : (ahead (cs (n + 1)))[rest.length + q]? = some created[q] := by
      rw [hafter, List.getElem?_append_right (Nat.le_add_right _ _), Nat.add_sub_cancel_left,
        List.getElem?_eq_getElem hq]
    have hresumed := resumed_of_forever h hwaits
    rw [← Nat.add_assoc] at hresumed
    exact ⟨by omega, _, _, _, _, h n, h (n + 1), h _, hresumed, hmem.1, hnext ▸ hmem.2⟩
  · rw [heads, heads, hahead, hafter, List.length_append, List.length_cons, List.range'_succ,
      ← List.range'_append_1, ← Multiset.cons_coe, ← Multiset.coe_add, add_comm,
      Multiset.singleton_add, Multiset.cons_add]

/-- A tick that does not end has a chain of threads without an end. -/
theorem exists_chain_of_forever (h : ∀ n, turns m n c = some (cs n)) :
    ∃ chain : Nat → Nat, ∀ k, Begets m c (chain k) (chain (k + 1)) := by
  by_contra hnone
  have hwf : WellFounded fun j i => Begets m c i j :=
    wellFounded_iff_isEmpty_descending_chain.2 ⟨fun ⟨chain, hchain⟩ => hnone ⟨chain, hchain⟩⟩
  exact (wellFounded_iff_isEmpty_descending_chain.1 hwf.cutExpand).false
    ⟨heads cs, cutExpand_heads h⟩

end

/-- A tick that ends has none. -/
theorem Runs.not_chain {r : Scheduler κ × σ} (h : Runs m c.1 c.2.1 c.2.2 r) :
    ¬∃ chain : Nat → Nat, ∀ k, Begets m c (chain k) (chain (k + 1)) := by
  rintro ⟨chain, hchain⟩
  obtain ⟨n, last, hturns, hend⟩ := h.exists_turns
  have hle : ∀ k, k ≤ chain k := by
    intro k
    induction k with
    | zero => exact Nat.zero_le _
    | succ k ih => exact ih.trans_lt (hchain k).1
  have hover : ∀ k, turns m (n + 1 + k) c = none := by
    intro k
    induction k with
    | zero =>
        show (turns m n c).bind _ = none
        rw [hturns]
        exact hend
    | succ k ih =>
        show (turns m (n + 1 + k) c).bind _ = none
        rw [ih]
        rfl
  -- the chain comes to a turn after the last one
  obtain ⟨-, before, -, -, -, hbefore, -⟩ := hchain (n + 1)
  obtain ⟨k, hk⟩ := Nat.exists_eq_add_of_le (hle (n + 1))
  rw [hk, hover] at hbefore
  cases hbefore

/-- A tick of any scheduler with any machine ends exactly if there is no endless chain of threads,
each created in the turn in which the one before is resumed. When it ends, it has taken one turn for
every thread that there was and one for every thread that it has created. -/
theorem tick_ends_iff (m : Machine σ φ α κ) (sch : Scheduler κ) (s : σ) :
    ((∃ r, Runs m 0 sch s r) ↔
      ¬∃ chain : Nat → Nat, ∀ k, Begets m (0, sch, s) (chain k) (chain (k + 1))) ∧
    ∀ r, Runs m 0 sch s r → tick m sch s = r ∧
      ∃ n last, turns m n (0, sch, s) = some (last, r) ∧ turn m last r.1 r.2 = none ∧
        n + sch.nextId = sch.size + r.1.nextId := by
  refine ⟨⟨?_, ?_⟩, ?_⟩
  · rintro ⟨r, hr⟩
    exact hr.not_chain
  · intro hnone
    by_contra hforever
    obtain ⟨cs, hcs⟩ := exists_forever (c := (0, sch, s)) hforever
    exact hnone (exists_chain_of_forever hcs)
  · intro r hr
    obtain ⟨n, last, hturns, hend⟩ := hr.exists_turns
    have hlength := length_ahead_turns hturns
    have hdone : ahead (last, r) = [] := turn_eq_none_iff.1 hend
    rw [hdone] at hlength
    exact ⟨hr.resumeFrom_eq, n, last, hturns, hend, hlength⟩

/-! ## A thread that asks for another one -/

/-- The scripts of a thread that asks for one that waits. -/
def askingTheatre : Puppet.Theatre :=
  .opening [("asks", [.spawn (some "waits") none]), ("waits", [.stop .suspended])]

/-- The tick takes two turns, one for the thread that was there and one for the other. -/
theorem tick_ends_iff_asking :
    let created := createThread Puppet.machine (some "asks") none false (.empty ⟨100⟩) askingTheatre
    let sch := created.2.1
    let s := created.2.2
    ∃ r, Runs Puppet.machine 0 sch s r ∧ tick Puppet.machine sch s = r ∧
      (¬∃ chain : Nat → Nat, ∀ k, Begets Puppet.machine (0, sch, s) (chain k) (chain (k + 1))) ∧
      ∃ n last, turns Puppet.machine n (0, sch, s) = some (last, r) ∧
        turn Puppet.machine last r.1 r.2 = none ∧ n = 2 := by
  intro created sch s
  have hruns : ∃ r, Runs Puppet.machine 0 sch s r ∧ r.1.nextId = 3 :=
    ⟨_, .more rfl (.more rfl (.done rfl)), rfl⟩
  obtain ⟨r, hruns, hnext⟩ := hruns
  obtain ⟨hends, hcount⟩ := tick_ends_iff Puppet.machine sch s
  obtain ⟨htick, n, last, hturns, hend, hn⟩ := hcount r hruns
  refine ⟨r, hruns, htick, hends.1 ⟨r, hruns⟩, n, last, hturns, hend, ?_⟩
  have hbefore : sch.nextId = 2 ∧ sch.size = 1 := ⟨rfl, rfl⟩
  rw [hbefore.1, hbefore.2, hnext] at hn
  omega

/-! ## A thread that asks for itself -/

/-- The script of a thread that asks for another one like itself. -/
def breeding : List Puppet.Move := [.spawn (some "breeds") none]

/-- There is one thread, and it is about to ask for another one like itself. -/
structure Breeding (sch : Scheduler Puppet.Context) (s : Puppet.Theatre) : Prop where
  thread : ∃ t, sch.threads = [t] ∧ t.context.moves = breeding ∧ t.context.state = .ready ∧
    t.keepAlive = false
  scripts : s.scripts = [("breeds", breeding)]
  spawned : s.spawned = []
  exhausted : s.exhausted = false

/-- After the turn of the thread there is again one such thread, at the same position. -/
theorem Breeding.turn {sch : Scheduler Puppet.Context} {s : Puppet.Theatre} (h : Breeding sch s) :
    ∃ sch' s', Scheduler.turn Puppet.machine 0 sch s = some (0, sch', s') ∧ Breeding sch' s' := by
  obtain ⟨⟨⟨id, label, ⟨clabel, args, state, made, moves⟩, keepAlive⟩, hthreads, hmoves, hstate,
    hkeep⟩, hscripts, hspawned, hexhausted⟩ := h
  obtain ⟨threads, retained, nextId, watchdog⟩ := sch
  obtain ⟨scripts, clock, registry, spawned, prepared, exhausted, notes, journal⟩ := s
  simp only at hthreads hmoves hstate hkeep hscripts hspawned hexhausted
  subst hthreads hmoves hstate hkeep hscripts hspawned hexhausted
  exact ⟨_, _, rfl, ⟨_, rfl, rfl, rfl, rfl⟩, rfl, rfl, rfl⟩

/-- A tick with a thread that asks for another one like itself never ends, though every resume
does. -/
theorem breeding_never_ends :
    let created := createThread Puppet.machine (some "breeds") none false (.empty ⟨100⟩)
      (.opening [("breeds", breeding)])
    ¬∃ r, Runs Puppet.machine 0 created.2.1 created.2.2 r := by
  intro created
  have hforever : ∀ {index sch s r}, Runs Puppet.machine index sch s r → index = 0 →
      ¬Breeding sch s := by
    intro index sch s r hruns
    induction hruns with
    | done hturn =>
        rintro rfl hbreeding
        obtain ⟨sch', s', hmore, -⟩ := hbreeding.turn
        rw [hturn] at hmore
        cases hmore
    | more hturn _ ih =>
        rintro rfl hbreeding
        obtain ⟨sch', s', hmore, hbreeding'⟩ := hbreeding.turn
        rw [hturn] at hmore
        obtain ⟨rfl, rfl, rfl⟩ : _ = 0 ∧ _ = sch' ∧ _ = s' := by simpa using hmore
        exact ih rfl hbreeding'
  rintro ⟨r, hruns⟩
  exact hforever hruns rfl ⟨⟨_, rfl, rfl, rfl, rfl⟩, rfl, rfl, rfl⟩

end Scheduler

end Cutscene
