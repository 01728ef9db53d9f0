import Cutscene.Proofs.Script.History
import Cutscene.Proofs.Thread.Turns

/-!
# Threads that scripts are promised

A script that asks for a thread is told at once whether there will be one. The request goes on a
list, which the scheduler takes after the resume of a thread. So all requests of a resume become
threads in the same turn, in order, behind all others, and are resumed in the same tick, each in one
turn (`promises_kept`); so do those that were made before the tick, with the first turn.

A tick without threads takes no turn, and takes no requests, either. What a script is promised while
it is loaded is not kept as long as the host creates no thread (`promise_broken`).
-/

namespace Cutscene

namespace Script

open Scheduler (turns ahead turn ResumedAt)

/-! ## Promises -/

/-- The threads that have been promised and for which no request has been taken since. -/
def waiting (deeds : List Deed) : List (Value × Value) :=
  deeds.foldl (fun waits d => match d with
    | .promised function argument => waits ++ [(function, argument)]
    | .collected => []
    | _ => waits) []

/-- The threads that are promised. -/
def promised (deeds : List Deed) : List (Value × Value) :=
  deeds.filterMap fun
    | .promised function argument => some (function, argument)
    | _ => none

/-- A thread that will call a function with an argument, if that is not nil. -/
structure Fresh (t : Thread Context) (p : Value × Value) : Prop where
  coroutine : t.context.coroutine = .fresh p.1 (if p.2.isNil then [] else [p.2])
  state : t.context.state = .ready
  keepAlive : t.keepAlive = false

theorem waiting_concat (deeds : List Deed) (d : Deed) :
    waiting (deeds ++ [d]) = match d with
      | .promised function argument => waiting deeds ++ [(function, argument)]
      | .collected => []
      | _ => waiting deeds := by
  rw [waiting, List.foldl_concat]
  rfl

/-- The requests that wait are those of the threads that have been promised. -/
def Marks.Owes (m : Marks) (deeds : List Deed) : Prop :=
  m.spawned.toList = (waiting deeds).map fun p => promise p.1 p.2

theorem Marks.Leads.owes {m m' : Marks} {before deeds : List Deed} (h : m.Leads deeds m')
    (hm : m.Owes before) : m'.Owes (before ++ deeds) := by
  rw [h.eq_foldl]
  clear h
  induction deeds using List.reverseRecOn with
  | nil => simpa using hm
  | append_singleton deeds d ih =>
      rw [Marks.Owes, List.foldl_concat, ← List.append_assoc, waiting_concat]
      cases d with
      | promised function argument =>
          rw [List.map_append, ← ih]
          exact Array.toList_push
      | collected => rfl
      | _ => exact ih

theorem waiting_append {deeds deeds' : List Deed} (hdeeds : .collected ∉ deeds') :
    waiting (deeds ++ deeds') = waiting deeds ++ promised deeds' := by
  induction deeds' using List.reverseRecOn with
  | nil => simp [promised]
  | append_singleton deeds' d ih =>
      rw [List.mem_append, not_or, List.mem_singleton] at hdeeds
      rw [← List.append_assoc, waiting_concat, ih hdeeds.1]
      cases d with
      | collected => exact absurd rfl hdeeds.2
      | promised function argument => simp [promised]
      | _ => simp [promised]

/-! ## A turn -/

/-- Who is promised a thread gets one. -/
theorem exists_createThread (p : Value × Value) (sch : Scheduler Context) (s : State) :
    ∃ t s', Fresh t p ∧
      Scheduler.createThread machine (promise p.1 p.2).function (promise p.1 p.2).args false sch s =
        (some sch.nextId,
          { sch with threads := sch.threads ++ [t], nextId := sch.nextId + 1 }, s') := by
  obtain ⟨f, a⟩ := p
  by_cases ha : a.isNil = true
  · simp only [promise, if_pos ha]
    exact ⟨_, _, ⟨(congrArg (Coroutine.fresh f) (if_pos ha)).symm, rfl, rfl⟩, rfl⟩
  · simp only [promise, if_neg ha]
    exact ⟨_, _, ⟨(congrArg (Coroutine.fresh f) (if_neg ha)).symm, rfl, rfl⟩, rfl⟩

theorem exists_createSpawned (ps : List (Value × Value)) (sch : Scheduler Context) (s : State) :
    ∃ made s', List.Forall₂ Fresh made ps ∧
      Scheduler.createSpawned machine (ps.map fun p => promise p.1 p.2) sch s =
        ({ sch with threads := sch.threads ++ made, nextId := sch.nextId + made.length }, s') := by
  induction ps generalizing sch s with
  | nil => exact ⟨[], s, .nil, by simp [Scheduler.createSpawned]⟩
  | cons p ps ih =>
      obtain ⟨t, s₁, ht, hcreate⟩ := exists_createThread p sch s
      obtain ⟨made, s₂, hmade, hrest⟩ := ih
        { sch with threads := sch.threads ++ [t], nextId := sch.nextId + 1 } s₁
      refine ⟨t :: made, s₂, .cons ht hmade, ?_⟩
      show Scheduler.createSpawned machine (ps.map fun p => promise p.1 p.2)
        (Scheduler.createThread machine _ _ false sch s).2.1
        (Scheduler.createThread machine _ _ false sch s).2.2 = _
      rw [hcreate, hrest]
      simp [Nat.add_assoc, Nat.add_comm 1]

/-- What comes behind an element that is taken out of a list comes to its place. -/
theorem drop_eraseIdx {β : Type} (l : List β) (i : Nat) :
    (l.eraseIdx i).drop i = l.drop (i + 1) := by
  rcases Nat.lt_or_ge i l.length with hlt | hge
  · rw [List.eraseIdx_eq_take_drop_succ, List.drop_left' (List.length_take_of_le hlt.le)]
  · rw [List.eraseIdx_of_length_le hge, List.drop_of_length_le hge,
      List.drop_of_length_le (Nat.le_succ_of_le hge)]

/-- In a turn there come threads for all that wait when the resume has ended, behind all others. -/
theorem exists_made {index : Nat} {sch : Scheduler Context} {s : State} {t : Thread Context}
    (ht : sch.threads[index]? = some t) {before : List Deed} (howes : s.marks.Owes before) :
    let deeds := resumeDeeds t.context (sch.watchdog.arm s.time) s
    ∃ next made, turn machine index sch s = some next ∧
      List.Forall₂ Fresh made (waiting (before ++ deeds)) ∧
      ahead next = sch.threads.drop (index + 1) ++ made ∧ next.2.2.marks.spawned = #[] := by
  intro deeds
  have hlt : index < sch.threads.length := (List.getElem?_eq_some_iff.mp ht).1
  have hrequests : (Scheduler.resume machine sch.watchdog t s).2.2.1 =
      (waiting (before ++ deeds)).map fun p => promise p.1 p.2 :=
    (leads_resume t.context (sch.watchdog.arm s.time) s).owes howes
  obtain ⟨made, s', hmade, hcreate⟩ := exists_createSpawned (waiting (before ++ deeds))
    (sch.putAt index (Scheduler.resume machine sch.watchdog t s).2.1)
    (Scheduler.resume machine sch.watchdog t s).2.2.2
  obtain ⟨next, hturn, hindex, hthreads, -⟩ := exists_turn ht s
  rw [hrequests, hcreate] at hthreads
  refine ⟨next, made, hturn, hmade, ?_, ?_⟩
  · have hahead : ahead next = (sch.threads.set index
        (Scheduler.resume machine sch.watchdog t s).2.1 ++ made).drop (index + 1) := by
      rw [ahead, hindex, hthreads]
      split
      · rfl
      · exact drop_eraseIdx _ index
    rw [hahead, List.drop_append_of_le_length (by rw [List.length_set]; exact hlt),
      List.drop_set_of_lt (Nat.lt_succ_self index)]
  · rw [(leads_turn ht hturn).eq_foldl, List.foldl_concat]
    rfl

/-- After the first turn of a tick nothing waits. -/
theorem spawned_turns {c b : Nat × Scheduler Context × State} {n : Nat}
    (hb : turns machine (n + 1) c = some b) : b.2.2.marks.spawned = #[] := by
  obtain ⟨b', -, hturn⟩ := Option.bind_eq_some_iff.mp hb
  cases ht : b'.2.1.threads[b'.1]? with
  | none => exact absurd hturn (by simp [turn, ht])
  | some t =>
      rw [(leads_turn ht hturn).eq_foldl, List.foldl_concat]
      rfl

/-! ## Ticks -/

/-- In any tick of any runtime: when a thread has been resumed, there come threads, in order and
behind all others, for exactly those functions for which a thread was promised in this resume, and
in the first turn before them for those for which one was promised since requests were taken last.
Each of these threads is resumed in one later turn of the tick, as it was created, and in no other.
A tick without threads does nothing. -/
theorem promises_kept (c : Chunk) (s : State) (hnone : s.memory.spawned = #[])
    (watchdog : Watchdog) (ms : List Move) :
    let opened := Runtime.opening watchdog (c.load s).2
    let o := opened.moves ms
    let start := (0, o.scheduler, o.state)
    (o.scheduler.threads = [] → Scheduler.tick machine o.scheduler o.state =
      (o.scheduler, o.state)) ∧
    ∀ n b t, turns machine n start = some b → b.2.1.threads[b.1]? = some t →
      ∃ next made, turns machine (n + 1) start = some next ∧
        ahead next = (ahead b).tail ++ made ∧
        List.Forall₂ Fresh made
          ((if n = 0 then waiting (c.deeds s ++ opened.history ms) else []) ++
            promised (resumeDeeds t.context (b.2.1.watchdog.arm b.2.2.time) b.2.2)) ∧
        ∀ u ∈ made, ∃ k, n < k ∧ ResumedAt machine start k u ∧
          ∀ k' u', ResumedAt machine start k' u' → u'.id = u.id → k' = k := by
  intro opened o start
  refine ⟨fun hthreads => Scheduler.tick_of_no_threads machine hthreads _, fun n b t hb ht => ?_⟩
  have howes : ∃ before, b.2.2.marks.Owes before ∧
      waiting before = if n = 0 then waiting (c.deeds s ++ opened.history ms) else [] := by
    cases n with
    | zero =>
        obtain rfl : start = b := Option.some.inj hb
        -- what is owed when the runtime is opened is what was promised before
        have hopened : opened.state.marks.Owes ([] ++ c.deeds s) :=
          (performs_load c s).leads.owes (congrArg Array.toList hnone)
        exact ⟨_, (opened.leads_history ms).owes hopened, rfl⟩
    | succ n => exact ⟨[], congrArg Array.toList (spawned_turns hb), rfl⟩
  obtain ⟨before, howes, hbefore⟩ := howes
  obtain ⟨next, made, hturn, hmade, hahead, -⟩ := exists_made ht howes
  have hnext : turns machine (n + 1) start = some next := by
    show (turns machine n start).bind _ = _
    rw [hb]
    exact hturn
  have hown : .collected ∉ resumeDeeds t.context (b.2.1.watchdog.arm b.2.2.time) b.2.2 :=
    fun hmem => collected_notMem_resumeDeeds _ _ _ hmem
  rw [waiting_append hown, hbefore] at hmade
  rw [← List.tail_drop] at hahead
  refine ⟨next, made, hnext, hahead, hmade, fun u hu => ?_⟩
  obtain ⟨i, hi⟩ := List.mem_iff_getElem?.mp hu
  have hwaits : (ahead next)[(ahead b).tail.length + i]? = some u := by
    rw [hahead]
    exact (List.getElem?_append_right (Nat.le_add_right _ _)).trans
      (by rwa [Nat.add_sub_cancel_left])
  have hresumed := Scheduler.resumedAt_of_ahead hnext hwaits
  have hrising := Scheduler.rising_run machine watchdog (c.load s).2.opening (ms.map Move.action)
  rw [← Runtime.moves_opening] at hrising
  exact ⟨_, by omega, hresumed, fun k' u' hu' hid => hrising.eq_of_resumedAt hresumed hu' hid⟩

/-- A script that is promised a ghost when it is loaded, with more functions. -/
def haunted (functions : List (String × List Statement)) : Chunk where
  functions := ("ghost", [.call "set_flag" [.text "haunted".toUTF8]]) :: functions
  main := [.call "create_thread" [.look "ghost" []]]

/-- A function that is promised a ghost, too. -/
def summons : String × List Statement :=
  (SceneScripts.entryName, [.call "create_thread" [.look "ghost" []]])

/-- With a thread that is promised another one, both are created and resumed. -/
theorem promises_kept_haunted :
    let o := (Runtime.opening ⟨100⟩ ((haunted [summons]).load freshState).2).moves
      [.create (.global SceneScripts.entryName) none true]
    ∃ made : List (Thread Context), made.length = 2 ∧ ∀ u ∈ made, ∃ k, 0 < k ∧
      ResumedAt machine (0, o.scheduler, o.state) k u ∧
      ∀ k' u', ResumedAt machine (0, o.scheduler, o.state) k' u' → u'.id = u.id → k' = k := by
  intro o
  obtain ⟨-, hkept⟩ := promises_kept (haunted [summons]) freshState rfl ⟨100⟩
    [.create (.global SceneScripts.entryName) none true]
  obtain ⟨t, ht⟩ : ∃ t, o.scheduler.threads[0]? = some t := ⟨_, rfl⟩
  obtain ⟨next, made, -, -, hmade, hresumed⟩ := hkept 0 _ t rfl ht
  refine ⟨made, ?_, hresumed⟩
  rw [hmade.length_eq]
  obtain rfl := Option.some.inj ht
  rfl

/-- Without a thread the ghost is promised, but no tick ever changes anything. -/
theorem promise_broken :
    let c := haunted []
    let o := Runtime.opening ⟨100⟩ (c.load freshState).2
    waiting (c.deeds freshState) =
        [(.closure 0 [.call "set_flag" [.text "haunted".toUTF8]], .nil)] ∧
      ∀ n, (fun q => Scheduler.tick machine q.1 q.2)^[n] (o.scheduler, o.state) =
        (o.scheduler, o.state) := by
  intro c o
  refine ⟨by rfl, fun n => Function.iterate_fixed ?_ n⟩
  exact Scheduler.tick_of_no_threads machine rfl o.state

end Script

end Cutscene
