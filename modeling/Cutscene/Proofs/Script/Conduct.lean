import Cutscene.Proofs.Script.HostCalls

/-!
# What scripts do among themselves

What the scripts of a scene have in common, beside their globals, are four marks in their memory:
the values that they share, the threads that they have asked for, and whether the thread that is
being resumed has called `abort` or was found to be late. A run is told as the list of its deeds,
which are the only things that touch these marks or ask for what is shared: `stepDeeds` reads off a
step what it does, and `runDeeds` off a run.

The marks after a run are those that its deeds leave, and every value that a script has looked up
is the one that was shared at that moment (`Marks.Leads`). This is shown of one step
(`performs_step`) and then of runs, resumes and the loading of a script.
-/

namespace Cutscene

namespace Script

/-! ## Deeds and marks -/

/-- Something that is done to what scripts have in common, or asked of it. -/
inductive Deed where
  /-- A thread begins to be resumed. -/
  | began
  /-- A value is put under a name. -/
  | shared (name : String) (v : Value)
  /-- A script looks a name up and is given a value. -/
  | looked (name : String) (v : Value)
  /-- A script asks for a thread and is told that there will be one. -/
  | promised (function argument : Value)
  /-- A script calls `abort`. -/
  | aborted
  /-- The deadline is found to have come. -/
  | late
  /-- The threads that were asked for are taken to be created. -/
  | collected

/-- Whether a deed is one of a script, and not of whoever resumes it. -/
def Deed.IsOwn : Deed → Prop
  | .began => False
  | .collected => False
  | _ => True

/-- What scripts have in common. -/
structure Marks where
  registry : Registry Value
  spawned : Array Request
  abortRequested : Bool
  timedOut : Bool

/-- What scripts have in common in a state. -/
def State.marks (s : State) : Marks :=
  ⟨s.memory.registry, s.memory.spawned, s.memory.abortRequested, s.memory.timedOut⟩

/-- The thread that is asked for by a function and an argument, which may be nil. -/
def promise (function argument : Value) : Request :=
  ⟨.value function, if argument.isNil then none else some (.value argument)⟩

namespace Marks

/-- The marks after a deed. -/
def after (m : Marks) : Deed → Marks
  | .began => { m with abortRequested := false, timedOut := false }
  | .shared name v => { m with registry := (m.registry.publish name v).1 }
  | .looked _ _ => m
  | .promised function argument => { m with spawned := m.spawned.push (promise function argument) }
  | .aborted => { m with abortRequested := true }
  | .late => { m with timedOut := true }
  | .collected => { m with spawned := #[] }

/-- Whether a deed is what it can be: who looks a name up is given the value under it. -/
def Allows (m : Marks) : Deed → Prop
  | .looked name v => v = (m.registry.fetch? name).getD .nil
  | _ => True

/-- Deeds, each of them as it can be, lead to marks. -/
def Leads (m : Marks) : List Deed → Marks → Prop
  | [], m' => m' = m
  | d :: deeds, m' => m.Allows d ∧ (m.after d).Leads deeds m'

namespace Leads

variable {m m' m'' : Marks} {deeds deeds' : List Deed} {d : Deed}

theorem refl (m : Marks) : m.Leads [] m := rfl

theorem of_eq (h : m' = m) : m.Leads [] m' := h

theorem single (h : m.Allows d) : m.Leads [d] (m.after d) := ⟨h, rfl⟩

theorem append (h : m.Leads deeds m') (h' : m'.Leads deeds' m'') :
    m.Leads (deeds ++ deeds') m'' := by
  induction deeds generalizing m with
  | nil =>
      obtain rfl : m' = m := h
      exact h'
  | cons d deeds ih => exact ⟨h.1, ih h.2⟩

theorem eq_foldl (h : m.Leads deeds m') : m' = deeds.foldl after m := by
  induction deeds generalizing m with
  | nil => exact h
  | cons d deeds ih => exact ih h.2

/-- Every deed was as it could be at its moment. -/
theorem allows (h : m.Leads (deeds ++ d :: deeds') m') : (deeds.foldl after m).Allows d := by
  induction deeds generalizing m with
  | nil => exact h.1
  | cons d' deeds ih => exact ih h.2

end Leads

/-- Deeds of scripts lead to marks. -/
structure Performs (m : Marks) (deeds : List Deed) (m' : Marks) : Prop where
  leads : m.Leads deeds m'
  own : ∀ d ∈ deeds, d.IsOwn

namespace Performs

variable {m m' m'' : Marks} {deeds deeds' : List Deed} {d : Deed}

theorem refl (m : Marks) : m.Performs [] m := ⟨.refl m, by simp⟩

theorem of_eq (h : m' = m) : m.Performs [] m' := h ▸ .refl m

theorem single (h : m.Allows d) (hown : d.IsOwn) : m.Performs [d] (m.after d) :=
  ⟨.single h, by simpa using hown⟩

theorem append (h : m.Performs deeds m') (h' : m'.Performs deeds' m'') :
    m.Performs (deeds ++ deeds') m'' :=
  ⟨h.leads.append h'.leads, fun d hd => (List.mem_append.mp hd).elim (h.own d) (h'.own d)⟩

end Performs

end Marks

/-! ## What a step does -/

/-- The value that a call of a function comes to. -/
def Reply.value : Reply → Value
  | .results vs => vs.headD .nil
  | _ => .nil

/-- Whether a call of a function says yes. -/
def Reply.isYes : Reply → Bool
  | .results [.boolean true] => true
  | _ => false

/-- What a function does when it is called. -/
def Builtin.deeds (b : Builtin) (args : List Value) (s : State) : List Deed :=
  match b with
  | .makeShared =>
    match ((args.drop 1).headD .nil).string? with
    | some name => [.shared name (args.headD .nil)]
    | none => []
  | .getShared =>
    match (args.headD .nil).string? with
    | some name => [.looked name (b.perform args s).1.value]
    | none => []
  | .createThread =>
    if (b.perform args s).1.isYes then [.promised (args.headD .nil) (args.getD 1 .nil)] else []
  | .abort => [.aborted]
  | _ => []

/-- What a call of a value does at once. -/
def enterDeeds (f : Value) (args : List Value) (callers : List Activation) (s : State) :
    List Deed :=
  if maxDepth < (callers.head?.map (·.depth)).getD 0 + 1 then []
  else match f with
  | .builtin b => b.deeds args s
  | _ => []

/-- What is done where the deadline is looked at. -/
def lookDeeds (watch : Option Watch) (s : State) : List Deed :=
  match watch with
  | some w => if w.deadline.isExpired s.time then [.late] else []
  | none => []

/-- What a task does. -/
def taskDeeds (watch : Option Watch) (t : Task) (a : Activation) (below : List Activation)
    (s : State) : List Deed :=
  match t with
  | .run (_ :: _) => lookDeeds watch s
  | .loop _ _ => lookDeeds watch s
  | .call count =>
    let (args, a) := a.popMany count
    let (f, a) := a.pop
    enterDeeds f args (a :: below) s
  | _ => []

/-- What a step does. -/
def stepDeeds (watch : Option Watch) (stack : List Activation) (s : State) : List Deed :=
  match stack with
  | [] => []
  | a :: below =>
    match a.tasks with
    | [] => lookDeeds watch s
    | t :: rest => taskDeeds watch t { a with tasks := rest } below s

namespace Builtin

theorem marks_withText (args : List Value) (s : State) {f : String → State → List Value × State}
    (hf : ∀ text, (f text s).2.marks = s.marks) : (withText args s f).2.marks = s.marks := by
  unfold withText
  split
  · rfl
  · exact hf _

/-- Stated for any time, because nothing must come to compare two of them. -/
theorem marks_withClock (s : State) (clock : Nat) :
    ({ s with clock := clock } : State).marks = s.marks := rfl

/-- A script is promised a thread exactly if one comes to those asked for. -/
theorem performs_askThread (function argument : Value) (s : State) :
    s.marks.Performs
      (if (askThread function argument s).1.isYes then [.promised function argument] else [])
      (askThread function argument s).2.marks := by
  have hask : ∀ args : Option Argument,
      promise function argument = ⟨.value function, args⟩ →
      let asked : Reply × State :=
        if function.isFunction then (.results [.boolean true], s.spawn ⟨.value function, args⟩)
        else
          (.results [.boolean false],
            s.note ⟨.error, s!"create_thread: Invalid function ({function.typeName})"⟩)
      s.marks.Performs (if asked.1.isYes then [.promised function argument] else [])
        asked.2.marks := by
    intro args hpromise asked
    by_cases hfunction : function.isFunction = true
    · simp only [asked, if_pos hfunction, Reply.isYes, if_true]
      have hspawned : (s.spawn ⟨.value function, args⟩).marks =
          s.marks.after (.promised function argument) := by
        show _ = { s.marks with spawned := s.marks.spawned.push (promise function argument) }
        rw [hpromise]
        rfl
      rw [hspawned]
      exact .single trivial trivial
    · simp only [asked, if_neg hfunction, Reply.isYes, Bool.false_eq_true, if_false]
      exact .refl _
  unfold askThread
  cases argument with
  | nil => exact hask none rfl
  | list id fromJson items => exact hask _ rfl
  | record id members => exact hask _ rfl
  | _ => exact .refl _

/-- What a function leaves behind is what its deeds say. -/
theorem performs_perform (b : Builtin) (args : List Value) (s : State) :
    s.marks.Performs (b.deeds args s) (b.perform args s).2.marks := by
  cases b with
  | makeShared =>
      rw [deeds, perform, withText]
      split
      · rename_i name heq
        rw [heq]
        exact .single trivial trivial
      · rename_i heq
        rw [heq]
        exact .refl _
  | getShared =>
      rw [deeds, perform, withText]
      split
      · rename_i name heq
        rw [heq]
        exact .single rfl trivial
      · rename_i heq
        rw [heq]
        exact .refl _
  | createThread => exact performs_askThread _ _ s
  | abort => exact .single trivial trivial
  | yield => exact .refl _
  | debugPrint => exact .of_eq (marks_withText _ s fun text => rfl)
  | errorPrint => exact .of_eq (marks_withText _ s fun text => rfl)
  | hasFlag => exact .of_eq (marks_withText _ s fun name => rfl)
  | setFlag => exact .of_eq (marks_withText _ s fun name => rfl)
  | unsetFlag => exact .of_eq (marks_withText _ s fun name => rfl)
  | callEvent => exact .of_eq (marks_withText _ s fun name => rfl)
  | logEvent =>
      rw [perform]
      split <;> exact .refl _
  | advance =>
      rw [perform]
      split
      · split
        · exact .refl _
        · exact .of_eq (marks_withClock s _)
      · exact .refl _

end Builtin

variable {watch : Option Watch}

theorem performs_unlessLate {stack : List Activation} {s : State} {go : Outcome}
    (h : go.state.marks = s.marks) :
    s.marks.Performs (lookDeeds watch s) (unlessLate watch stack s go).state.marks := by
  cases watch with
  | none => exact .of_eq h
  | some w =>
      dsimp only [lookDeeds, unlessLate]
      split
      · rw [state_fail]
        exact .single trivial trivial
      · exact .of_eq h

theorem performs_enter (f : Value) (args : List Value) (callers : List Activation) (s : State) :
    s.marks.Performs (enterDeeds f args callers s) (enter watch f args callers s).state.marks := by
  unfold enterDeeds enter
  dsimp only
  split
  · rw [state_fail]
    exact .refl _
  · cases f with
    | builtin b =>
        have hperform := b.performs_perform args s
        dsimp only
        split
        · rename_i vs s' heq
          rw [heq] at hperform
          rwa [state_deliver]
        · rename_i s' heq
          rw [heq] at hperform
          rwa [state_fail]
        · rename_i s' heq
          rw [heq] at hperform
          split
          · exact hperform
          · rwa [state_fail]
    | closure id body => exact .refl _
    | _ =>
        rw [state_fail]
        exact .refl _

theorem marks_evaluate (a : Activation) (e : Expression) (s : State) :
    (evaluate a e s).2.marks = s.marks := by
  unfold evaluate
  split <;> rfl

theorem performs_perform (t : Task) (a : Activation) (below : List Activation) (s : State) :
    s.marks.Performs (taskDeeds watch t a below s) (perform watch t a below s).state.marks := by
  cases t with
  | run body =>
      cases body with
      | nil => exact .refl _
      | cons st rest => exact performs_unlessLate rfl
  | evaluate e => exact .of_eq (marks_evaluate a e s)
  | member =>
      unfold perform
      dsimp only
      split
      · exact .refl _
      · rw [state_fail]
        exact .refl _
  | operate op =>
      unfold perform
      dsimp only
      split
      · exact .refl _
      · rw [state_fail]
        exact .refl _
  | call count => exact performs_enter _ _ _ s
  | pause count =>
      rw [perform]
      split
      · exact .refl _
      · rw [state_fail]
        exact .refl _
  | leave count =>
      rw [perform, state_leave]
      exact .refl _
  | raise =>
      rw [perform, state_fail]
      exact .refl _
  | loop condition body => exact performs_unlessLate rfl
  | _ => exact .of_eq rfl

/-- What a step leaves behind is what its deeds say. -/
theorem performs_step (stack : List Activation) (s : State) :
    s.marks.Performs (stepDeeds watch stack s) (step watch stack s).state.marks := by
  cases stack with
  | nil => exact .refl _
  | cons a below =>
      obtain ⟨isProtected, parameter, tasks, operands, depth, blocks⟩ := a
      cases tasks with
      | nil =>
          refine performs_unlessLate ?_
          rw [state_leave]
      | cons t rest => exact performs_perform _ _ _ s

/-! ## Whole runs -/

/-- What is done when a run is given up: a thread that is watched is late. -/
def giveUpDeeds (watch : Option Watch) : List Deed :=
  match watch with
  | some _ => [.late]
  | none => []

/-- What a run of at most so many steps does. -/
def runDeeds (watch : Option Watch) : Nat → List Activation → State → List Deed
  | 0, _, _ => giveUpDeeds watch
  | fuel + 1, stack, s =>
    stepDeeds watch stack s ++
      match step watch stack s with
      | .ended _ _ => []
      | .more stack s => runDeeds watch fuel stack s.pass

theorem performs_giveUp (watch : Option Watch) (s : State) :
    s.marks.Performs (giveUpDeeds watch) (giveUp watch s).2.marks := by
  cases watch with
  | none => exact .refl _
  | some w => exact .single trivial trivial

theorem performs_run (fuel : Nat) (stack : List Activation) (s : State) :
    s.marks.Performs (runDeeds watch fuel stack s) (run watch fuel stack s).2.marks := by
  induction fuel generalizing stack s with
  | zero => exact performs_giveUp watch s
  | succ fuel ih =>
      have hstep : s.marks.Performs (stepDeeds watch stack s) (step watch stack s).state.marks :=
        performs_step stack s
      rw [run, runDeeds]
      cases hnext : step watch stack s with
      | ended e s' =>
          rw [hnext] at hstep
          exact hstep.append (.refl _)
      | more stack' s' =>
          rw [hnext] at hstep
          exact hstep.append (ih stack' s'.pass)

/-- What is done when a step has led to something. -/
def Outcome.deeds (watch : Option Watch) : Outcome → List Deed
  | .ended _ _ => []
  | .more stack s => runDeeds watch runFuel stack s

theorem performs_settle (watch : Option Watch) (o : Outcome) :
    o.state.marks.Performs (o.deeds watch) (o.settle watch).2.marks := by
  cases o with
  | ended e s => exact .refl _
  | more stack s => exact performs_run runFuel stack s

/-! ## Resumes -/

/-- What a coroutine does until it gives way or ends. -/
def Coroutine.deeds (watch : Watch) (c : Coroutine) (s : State) : List Deed :=
  match c with
  | .fresh f args =>
    enterDeeds f args [] s ++ (enter (some watch) f args [] s).deeds (some watch)
  | .paused stack => (deliver [] stack s).deeds (some watch)

theorem Coroutine.performs_resume (watch : Watch) (c : Coroutine) (s : State) :
    s.marks.Performs (c.deeds watch s) (c.resume watch s).2.marks := by
  cases c with
  | fresh f args => exact (performs_enter f args [] s).append (performs_settle _ _)
  | paused stack =>
      have hsettle := performs_settle (some watch) (deliver [] stack s)
      rwa [state_deliver] at hsettle

/-- What a thread does in a resume. -/
def resumeDeeds (c : Context) (d : Deadline) (s : State) : List Deed :=
  if c.state.isResumable then
    .began :: c.coroutine.deeds ⟨c.label, d⟩ (s.beginResume c.label)
  else []

theorem marks_conclude (c : Context) (e : Ending) (s : State) :
    (conclude c e s).2.marks = s.marks := by
  unfold conclude
  split
  · dsimp only
    split <;> rfl
  · split <;> rfl

/-- What a resume leaves behind is what its deeds say. -/
theorem leads_resume (c : Context) (d : Deadline) (s : State) :
    s.marks.Leads (resumeDeeds c d s) (resume c d s).2.2.marks := by
  unfold resume resumeDeeds
  split
  · have hcoroutine := (c.coroutine.performs_resume ⟨c.label, d⟩ (s.beginResume c.label)).leads
    refine ⟨trivial, ?_⟩
    show (s.beginResume c.label).marks.Leads _ (conclude c _ _).2.marks
    rw [marks_conclude]
    exact hcoroutine
  · exact .refl _

/-- Whoever resumes a thread takes the requests afterwards. -/
theorem collected_notMem_resumeDeeds (c : Context) (d : Deadline) (s : State) :
    .collected ∉ resumeDeeds c d s := by
  have hown := (c.coroutine.performs_resume ⟨c.label, d⟩ (s.beginResume c.label)).own
  unfold resumeDeeds
  split
  · rw [List.mem_cons, not_or]
    exact ⟨Deed.noConfusion, fun hmem => hown _ hmem⟩
  · exact List.not_mem_nil

/-! ## Loading -/

/-- What the statements of a script do when it is loaded. -/
def Chunk.deeds (c : Chunk) (s : State) : List Deed :=
  (Outcome.more [.function c.main none 1 0] (c.functions.foldl define s)).deeds none

theorem marks_foldl_define (fs : List (String × List Statement)) (s : State) :
    (fs.foldl define s).marks = s.marks := by
  induction fs generalizing s with
  | nil => rfl
  | cons f fs ih => exact (ih (define s f)).trans rfl

/-- What a script leaves behind when it is loaded is what its deeds say. -/
theorem performs_load (c : Chunk) (s : State) :
    s.marks.Performs (c.deeds s) (c.load s).2.marks := by
  have hsettle := performs_settle none
    (.more [.function c.main none 1 0] (c.functions.foldl define s))
  have hdefine := marks_foldl_define c.functions s
  rw [← hdefine, Chunk.load, Chunk.deeds]
  split
  · rename_i vs s' heq
    rwa [heq] at hsettle
  · rename_i e s' hnot heq
    rwa [heq] at hsettle

end Script

end Cutscene
