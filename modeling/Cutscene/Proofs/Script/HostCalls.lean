import Cutscene.Script.Interpreter
import Cutscene.Proofs.Session.Contract

/-!
# What scripts do through the functions that they find

Scripts act on the chronicle and on the list of events to be called only through the functions that
they find (`Builtin`), of which four do anything to it. `Builtin.hostCalls` reads off a call of a
function what it does there, `stepHostCalls` off a step, and `runHostCalls` off a run. These calls
are all that scripts do to what they act on, but for lines of the journal (`State.Comes`), in a step
(`comes_step`) and so in runs, in resumes and in the loading of a script.
-/

namespace Cutscene

namespace Script

/-- What some calls do to what scripts act on leads from a state to another. -/
def State.Comes (s : State) (calls : List HostCall) (s' : State) : Prop :=
  (Reach.ofState s).Comes calls (.ofState s')

namespace State.Comes

variable {s s' s'' : State} {calls calls' : List HostCall}

theorem refl (s : State) : s.Comes [] s := .of_same (.refl _)

theorem of_eq (h : Reach.ofState s' = .ofState s) : s.Comes [] s' :=
  .of_same ⟨by rw [h], by rw [h], by rw [h]⟩

/-- Lines of the journal do not count. -/
theorem silent (hflags : s'.chronicle.flags = s.chronicle.flags)
    (hlog : s'.chronicle.log = s.chronicle.log) (hcalls : s'.calls = s.calls) : s.Comes [] s' :=
  .of_same ⟨hflags, hlog, hcalls⟩

theorem trans (h : s.Comes calls s') (h' : s'.Comes calls' s'') : s.Comes (calls ++ calls') s'' :=
  Reach.Comes.trans h h'

end State.Comes

/-- The state that is left. -/
def Outcome.state : Outcome → State
  | ended _ s => s
  | more _ s => s

/-! ## What the functions do -/

namespace Builtin

/-- What a function of a text calls. -/
def textCalls (call : String → HostCall) (args : List Value) : List HostCall :=
  ((args.headD .nil).string?.map call).toList

/-- What a call of a function does to what scripts act on. -/
def hostCalls (b : Builtin) (args : List Value) : List HostCall :=
  match b with
  | .setFlag => textCalls .setFlag args
  | .unsetFlag => textCalls .unsetFlag args
  | .callEvent => textCalls .callEvent args
  | .logEvent => ((args.mapM Value.string?).map fun parts => .logEvent (" ".intercalate parts)).toList
  | _ => []

/-- What a function of a text does is what it does with the text, if it is given one. -/
theorem comes_withText (call : String → HostCall) (args : List Value) (s : State)
    {f : String → State → List Value × State}
    (hf : ∀ text, s.Comes [call text] (f text s).2) :
    s.Comes (textCalls call args) (withText args s f).2 := by
  unfold textCalls withText
  cases (args.headD .nil).string? with
  | none => exact .refl s
  | some text => exact hf text

/-- A function of a text that does nothing with it does nothing. -/
theorem silent_withText (args : List Value) (s : State) {f : String → State → List Value × State}
    (hf : ∀ text, s.Comes [] (f text s).2) : s.Comes [] (withText args s f).2 := by
  unfold withText
  split
  · exact .refl s
  · exact hf _

/-- Asking for a thread is at most reported. -/
theorem silent_askThread (function argument : Value) (s : State) :
    s.Comes [] (askThread function argument s).2 := by
  have hasked : ∀ args : Option Argument,
      s.Comes [] (if function.isFunction then
          ((.results [.boolean true], s.spawn ⟨.value function, args⟩) : Reply × State)
        else
          (.results [.boolean false],
            s.note ⟨.error, s!"create_thread: Invalid function ({function.typeName})"⟩)).2 := by
    intro args
    split
    · exact .of_eq rfl
    · exact .silent rfl rfl rfl
  unfold askThread
  dsimp only
  split
  · exact hasked none
  · exact hasked _
  · exact hasked _
  · exact .refl s

/-- Stated for any time, because nothing must come to compare two of them. -/
theorem ofState_withClock (s : State) (clock : Nat) :
    Reach.ofState { s with clock := clock } = .ofState s := rfl

/-- Of the functions that scripts find, the only ones that do anything to what scripts act on, but
for lines of the journal, are those that change a flag, ask for an event or log something. -/
theorem comes_perform (b : Builtin) (args : List Value) (s : State) :
    s.Comes (b.hostCalls args) (b.perform args s).2 := by
  cases b with
  | setFlag => exact comes_withText _ args s fun name => .single _ _
  | unsetFlag => exact comes_withText _ args s fun name => .single _ _
  | callEvent => exact comes_withText _ args s fun name => .single _ _
  | logEvent =>
      rw [hostCalls, perform]
      cases args.mapM Value.string? with
      | none => exact .refl s
      | some parts => exact .single _ _
  | yield => exact .refl s
  | createThread => exact silent_askThread _ _ s
  | abort => exact .of_eq rfl
  | makeShared => exact silent_withText _ s fun name => .silent rfl rfl rfl
  | getShared => exact silent_withText _ s fun name => .refl s
  | debugPrint => exact silent_withText _ s fun text => .silent rfl rfl rfl
  | errorPrint => exact silent_withText _ s fun text => .silent rfl rfl rfl
  | hasFlag => exact silent_withText _ s fun name => .refl s
  | advance =>
      rw [perform]
      split
      · split
        · exact .refl s
        · exact .of_eq (ofState_withClock s _)
      · exact .refl s

end Builtin

/-! ## What a step calls -/

/-- What a call of a value calls at once. -/
def enterHostCalls (f : Value) (args : List Value) (callers : List Activation) : List HostCall :=
  if maxDepth < (callers.head?.map (·.depth)).getD 0 + 1 then []
  else match f with
  | .builtin b => b.hostCalls args
  | _ => []

/-- What a task calls. -/
def taskHostCalls (t : Task) (a : Activation) (below : List Activation) : List HostCall :=
  match t with
  | .call count =>
    let (args, a) := a.popMany count
    let (f, a) := a.pop
    enterHostCalls f args (a :: below)
  | _ => []

/-- What a step calls. -/
def stepHostCalls (stack : List Activation) : List HostCall :=
  match stack with
  | [] => []
  | a :: below =>
    match a.tasks with
    | [] => []
    | t :: rest => taskHostCalls t { a with tasks := rest } below

theorem state_fail (stack : List Activation) (s : State) : (fail stack s).state = s := by
  unfold fail
  split <;> rfl

theorem state_deliver (results : List Value) (callers : List Activation) (s : State) :
    (deliver results callers s).state = s := by
  unfold deliver
  split <;> rfl

theorem state_leave (results : List Value) (a : Activation) (below : List Activation) (s : State) :
    (leave results a below s).state = s := by
  unfold leave
  split
  · rfl
  · exact state_deliver _ _ s

/-- Evaluating an expression makes no more than identities. -/
theorem ofState_evaluate (a : Activation) (e : Expression) (s : State) :
    Reach.ofState (evaluate a e s).2 = .ofState s := by
  unfold evaluate
  split <;> rfl

variable {watch : Option Watch}

theorem comes_unlessLate {stack : List Activation} {s : State} {go : Outcome}
    (hgo : s.Comes [] go.state) : s.Comes [] (unlessLate watch stack s go).state := by
  unfold unlessLate
  split
  · split
    · rw [state_fail]
      exact .silent rfl rfl rfl
    · exact hgo
  · exact hgo

theorem comes_enter (f : Value) (args : List Value) (callers : List Activation) (s : State) :
    s.Comes (enterHostCalls f args callers) (enter watch f args callers s).state := by
  unfold enterHostCalls enter
  dsimp only
  split
  · rw [state_fail]
    exact .refl s
  · cases f with
    | closure id body => exact .refl s
    | builtin b =>
        have hperform := b.comes_perform args s
        dsimp only
        split
        · rename_i vs s' heq
          rw [heq] at hperform
          rwa [state_deliver]
        · rename_i s' heq
          rw [heq] at hperform
          rwa [state_fail]
        · rename_i s' heq
          rw [heq] at hperform
          split
          · exact hperform
          · rwa [state_fail]
    | _ =>
        dsimp only
        rw [state_fail]
        exact .refl s

theorem comes_perform (t : Task) (a : Activation) (below : List Activation) (s : State) :
    s.Comes (taskHostCalls t a below) (perform watch t a below s).state := by
  have hfail : ∀ stack, s.Comes [] (fail stack s).state := by
    intro stack
    rw [state_fail]
    exact .refl s
  cases t with
  | run body =>
      cases body with
      | nil => exact .refl s
      | cons st rest => exact comes_unlessLate (.refl s)
  | evaluate e => exact .of_eq (ofState_evaluate a e s)
  | member =>
      unfold perform
      dsimp only
      split
      · exact .refl s
      · exact hfail _
  | operate op =>
      unfold perform
      dsimp only
      split
      · exact .refl s
      · exact hfail _
  | call count => exact comes_enter _ _ _ s
  | pause count =>
      rw [perform]
      split
      · exact .refl s
      · exact hfail _
  | leave count =>
      rw [perform, state_leave]
      exact .refl s
  | raise => exact hfail _
  | loop condition body => exact comes_unlessLate (.refl s)
  | _ => exact .silent rfl rfl rfl

/-- A step does no more to what scripts act on than what it calls. -/
theorem comes_step (watch : Option Watch) (stack : List Activation) (s : State) :
    s.Comes (stepHostCalls stack) (step watch stack s).state := by
  cases stack with
  | nil => exact .refl s
  | cons a below =>
      unfold stepHostCalls step
      dsimp only
      cases a.tasks with
      | nil =>
          refine comes_unlessLate ?_
          rw [state_leave]
          exact .refl s
      | cons t rest => exact comes_perform t _ below s

/-! ## What runs call -/

/-- What a run of at most so many steps calls. -/
def runHostCalls (watch : Option Watch) : Nat → List Activation → State → List HostCall
  | 0, _, _ => []
  | fuel + 1, stack, s =>
    stepHostCalls stack ++
      match step watch stack s with
      | .ended _ _ => []
      | .more stack s => runHostCalls watch fuel stack s.pass

/-- What is called when a step has led to something. -/
def Outcome.hostCalls (watch : Option Watch) : Outcome → List HostCall
  | .ended _ _ => []
  | .more stack s => runHostCalls watch runFuel stack s

/-- What a coroutine calls until it gives way or ends. -/
def Coroutine.hostCalls (watch : Watch) (c : Coroutine) (s : State) : List HostCall :=
  match c with
  | .fresh f args =>
    enterHostCalls f args [] ++ (enter (some watch) f args [] s).hostCalls (some watch)
  | .paused stack => (deliver [] stack s).hostCalls (some watch)

/-- What a thread calls in a resume. -/
def resumeHostCalls (c : Context) (d : Deadline) (s : State) : List HostCall :=
  if c.state.isResumable then c.coroutine.hostCalls ⟨c.label, d⟩ (s.beginResume c.label) else []

/-- What the statements of a script call when it is loaded. -/
def Chunk.hostCalls (c : Chunk) (s : State) : List HostCall :=
  (Outcome.more [.function c.main none 1 0] (c.functions.foldl define s)).hostCalls none

/-- What a script calls when it is loaded, if there is one. -/
def loadHostCalls (chunk : Option Chunk) (s : State) : List HostCall :=
  chunk.elim [] (·.hostCalls s)

theorem ofState_foldl_define (fs : List (String × List Statement)) (s : State) :
    Reach.ofState (fs.foldl define s) = .ofState s := by
  induction fs generalizing s with
  | nil => rfl
  | cons f fs ih => exact (ih (define s f)).trans rfl

/-- A run does no more than what it calls. -/
theorem comes_run (fuel : Nat) (stack : List Activation) (s : State) :
    s.Comes (runHostCalls watch fuel stack s) (run watch fuel stack s).2 := by
  induction fuel generalizing stack s with
  | zero =>
      cases watch with
      | none => exact .refl s
      | some w => exact .silent rfl rfl rfl
  | succ fuel ih =>
      have hstep := comes_step watch stack s
      rw [run, runHostCalls]
      cases hnext : step watch stack s with
      | ended e s' =>
          rw [hnext] at hstep
          exact hstep.trans (.refl s')
      | more stack' s' =>
          rw [hnext] at hstep
          exact hstep.trans (ih stack' s'.pass)

theorem comes_settle (watch : Option Watch) (o : Outcome) :
    o.state.Comes (o.hostCalls watch) (o.settle watch).2 := by
  cases o with
  | ended e s => exact .refl s
  | more stack s => exact comes_run runFuel stack s

theorem Coroutine.comes_resume (w : Watch) (k : Coroutine) (s : State) :
    s.Comes (k.hostCalls w s) (k.resume w s).2 := by
  cases k with
  | fresh f args => exact (comes_enter f args [] s).trans (comes_settle _ _)
  | paused stack =>
      have hsettle := comes_settle (some w) (deliver [] stack s)
      rwa [state_deliver] at hsettle

theorem comes_conclude (c : Context) (e : Ending) (s : State) :
    s.Comes [] (conclude c e s).2 := by
  unfold conclude
  split
  · dsimp only
    split
    · exact .silent rfl rfl rfl
    · exact .refl s
  · split
    · exact .refl s
    · exact .refl s
    · exact .silent rfl rfl rfl

/-- A resume does no more than what it calls. -/
theorem comes_resume (c : Context) (d : Deadline) (s : State) :
    s.Comes (resumeHostCalls c d s) (resume c d s).2.2 := by
  unfold resumeHostCalls resume
  split
  · have hresumed := c.coroutine.comes_resume ⟨c.label, d⟩ (s.beginResume c.label)
    rcases hended : c.coroutine.resume ⟨c.label, d⟩ (s.beginResume c.label) with ⟨e, s'⟩
    rw [hended] at hresumed
    have hconcluded := hresumed.trans (comes_conclude c e s'.endResume)
    rwa [List.append_nil] at hconcluded
  · exact .refl s

/-- Loading a script does no more than what it calls. -/
theorem comes_load (chunk : Option Chunk) (s : State) :
    s.Comes (loadHostCalls chunk s) (load chunk s).2 := by
  cases chunk with
  | none => exact .refl s
  | some c =>
      have hsettle := comes_settle none
        (.more [.function c.main none 1 0] (c.functions.foldl define s))
      rw [Outcome.state, State.Comes, ofState_foldl_define] at hsettle
      rw [load, Chunk.load]
      split
      · rename_i vs s' heq
        rwa [heq] at hsettle
      · rename_i e s' hnot heq
        rwa [heq] at hsettle

/-- Whatever is asked of scripts but to be resumed is no more than a line in the journal. -/
theorem quiet : machine.Relates fun s s' => (Reach.ofState s).Same (.ofState s') where
  refl s := .refl _
  trans := .trans
  note line s := ⟨rfl, rfl, rfl⟩
  prepare e arg s := by
    have hentry : Reach.ofState (s.entry e).2 = .ofState s := by
      unfold State.entry
      split
      · dsimp only
        split <;> rfl
      · rfl
    have hargument : ∀ (a : Argument) (s : State), Reach.ofState (s.argument a).2 = .ofState s := by
      intro a s
      cases a <;> rfl
    have hprepare : Reach.ofState (prepare e arg s).2 = .ofState s := by
      unfold prepare
      split
      · rename_i error s' heq
        rwa [heq] at hentry
      · rename_i label f s' heq
        rw [heq] at hentry
        split
        · exact hentry
        · exact (hargument _ s').trans hentry
    show Reach.Same _ (.ofState (prepare e arg s).2)
    rw [hprepare]
    exact .refl _
  abort c s := by
    show Reach.Same _ (.ofState (abort c s).2)
    unfold abort
    dsimp only
    split
    · exact ⟨rfl, rfl, rfl⟩
    · exact .refl _
  recycle c s := .refl _
  takeSpawned s := ⟨rfl, rfl, rfl⟩
  collectStep s := .refl _
  collectFull s := .refl _

end Script

end Cutscene
