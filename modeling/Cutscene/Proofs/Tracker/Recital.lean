import Cutscene.Proofs.Tracker.Ending

/-!
# Events as programs

Most operations are done the moment they are executed: they need no second tick. An event that is
made of such operations, with all that it calls, runs to its end within one tick, and then the stack
of frames is only a way to write down a recursion. `Recites` is that recursion: it goes through the
operations of an event from left to right, and a call is a call.

`tick_recites` says that a tick and the recursion do the same, to the last request to the stage. One
turn does what the recursion makes of one operation (`goes_carry`), and whole events agree by
induction on the weight of the stack (`agrees`).
-/

namespace Cutscene

namespace Operation

/-- Whether an operation is always done in one execution and leaves the scene as it is. -/
def isInstant : Operation → Bool
  | say text => text.intervalMs < 0
  | hideBox | entity _ | flagSet _ | flagUnset _ | flagIf .. | flagExitIf _ | flagOnce _ => true
  | music _ | tileReplace _ | unsupported _ => true
  | wait _ | waitForKey | selection .. | sceneLoad .. | fadeIn _ | fadeOut _ => false

/-- Whether an operation can have another outcome than that the next one follows. -/
def isControl : Operation → Bool
  | flagIf .. | flagExitIf _ | flagOnce _ => true
  | _ => false

theorem loadsScene_of_isInstant {op : Operation} (h : op.isInstant = true) :
    op.loadsScene = false := by
  cases op with
  | sceneLoad path door => cases h
  | _ => rfl

end Operation

/-! ## The recursion -/

section

variable {σ : Type} (stage : Stage σ)

/-- What an instant operation does that neither calls nor ends an event. -/
def Operation.immediate (op : Operation) (voices : Voices) (s : σ) : Voices × σ :=
  match op with
  | .say text => (voices, sayAtOnce stage text voices (beginSay stage text voices s))
  | .hideBox => (voices, stage.closeBox s)
  | .entity cue => entityStep stage cue voices s
  | .flagSet flag => (voices, stage.setFlag flag s)
  | .flagUnset flag => (voices, stage.unsetFlag flag s)
  | .music action => musicStep stage action voices s
  | .tileReplace t => (voices, tileStep stage t s)
  | .unsupported opcode => (voices, stage.say .error s!"unsupported opcode '{opcode}' skipped" s)
  | _ => (voices, s)

/-- The event that a call on a flag is for: the inline operations if there are any, otherwise the
event of the name. -/
def flagTarget? (e : Event) (position : Nat) (target : Option String)
    (inlined : Option (List Operation)) (s : σ) : Option Event :=
  match inlined, target with
  | some (op :: ops), _ => some (e.inlined position (op :: ops))
  | _, some name => stage.findEvent name s
  | _, none => none

/-- Reports that an operation is executed. -/
def noteEntry (e : Event) (position : Nat) (op : Operation) (s : σ) : σ :=
  let entry := " (enter)"
  stage.say .trace s!"event {e.displayName} [{position}] {op.opcode}{entry}" s

/-- Reports that a call on a flag is for no event. -/
def noteNoTarget (flag : String) (target : Option String) (s : σ) : σ :=
  match target with
  | some name => stage.say .error s!"event '{name}' not found" s
  | none => stage.say .warn s!"flag_if '{flag}' has no event to call" s

/-- Reports that an event is called. -/
def noteCalled (e : Event) (s : σ) : σ := stage.say .debug s!"event {e.displayName} called" s

/-- Reports that an event is not called because it is running. -/
def noteRefused (e : Event) (s : σ) : σ :=
  stage.say .error s!"event {e.displayName} is already running; recursive call ignored" s

/-- Reports that an event ends before its last operation. -/
def noteCancelled (e : Event) (position : Nat) (s : σ) : σ :=
  stage.say .debug s!"event {e.displayName} cancelled at [{position}]" s

/-- What an operation comes to in the recursion. -/
inductive Outcome (σ : Type) where
  /-- The next operation follows. -/
  | next (voices : Voices) (s : σ)
  /-- The event ends. -/
  | leave (s : σ)
  /-- Another event comes first, and then the next operation. -/
  | call (child : Event) (s : σ)

/-- What an operation of an event comes to. The ancestors are the events that are waiting for this
one to end. -/
def outcome (ancestors : List Event.Id) (e : Event) (position : Nat) (op : Operation)
    (voices : Voices) (s : σ) : Outcome σ :=
  let s := noteEntry stage e position op s
  match op with
  | .flagExitIf flag =>
    if stage.hasFlag flag s then .leave (noteCancelled stage e position s) else .next voices s
  | .flagOnce flag =>
    if stage.hasFlag flag s then .leave (noteCancelled stage e position s)
    else .next voices (stage.setFlag flag s)
  | .flagIf flag target inlined =>
    if stage.hasFlag flag s then
      match flagTarget? stage e position target inlined s with
      | none => .next voices (noteNoTarget stage flag target s)
      | some child =>
        if child.id ∈ e.id :: ancestors then .next voices (noteRefused stage child s)
        else .call child (noteCalled stage child s)
    else .next voices s
  | op =>
    let (voices, s) := op.immediate stage voices s
    .next voices s

/-- Going through the operations of an event from a position on: where that leads to. -/
inductive Recites : List Event.Id → Event → Nat → List Operation → Voices → σ → Voices × σ → Prop
  /-- Nothing is left to do. -/
  | finished {ancestors : List Event.Id} {e : Event} {position : Nat} {voices : Voices} {s : σ} :
      Recites ancestors e position [] voices s (voices, s)
  /-- An operation is done, then the rest. -/
  | next {ancestors : List Event.Id} {e : Event} {position : Nat} {op : Operation}
      {rest : List Operation} {voices voices' : Voices} {s s' : σ} {r : Voices × σ}
      (hop : outcome stage ancestors e position op voices s = .next voices' s')
      (hrest : Recites ancestors e (position + 1) rest voices' s' r) :
      Recites ancestors e position (op :: rest) voices s r
  /-- The rest is left out, but nothing of the event that called this one. -/
  | leave {ancestors : List Event.Id} {e : Event} {position : Nat} {op : Operation}
      {rest : List Operation} {voices : Voices} {s s' : σ}
      (hop : outcome stage ancestors e position op voices s = .leave s') :
      Recites ancestors e position (op :: rest) voices s (voices, s')
  /-- A called event is gone through to its end, then the rest. -/
  | call {ancestors : List Event.Id} {e child : Event} {position : Nat} {op : Operation}
      {rest : List Operation} {voices voices' : Voices} {s s' s'' : σ} {r : Voices × σ}
      (hop : outcome stage ancestors e position op voices s = .call child s')
      (hchild : Recites (e.id :: ancestors) child 0 child.operations voices s' (voices', s''))
      (hrest : Recites ancestors e (position + 1) rest voices' s'' r) :
      Recites ancestors e position (op :: rest) voices s r

variable {stage}

/-- The recursion leads to one thing only. -/
theorem Recites.unique {ancestors : List Event.Id} {e : Event} {position : Nat}
    {ops : List Operation} {voices : Voices} {s : σ} {r r' : Voices × σ}
    (h : Recites stage ancestors e position ops voices s r)
    (h' : Recites stage ancestors e position ops voices s r') : r = r' := by
  induction h generalizing r' with
  | finished =>
      cases h' with
      | finished => rfl
  | next hop _ ih =>
      cases h' with
      | next hop' hrest =>
          obtain ⟨rfl, rfl⟩ := Outcome.next.inj (hop.symm.trans hop')
          exact ih hrest
      | leave hop' => cases hop.symm.trans hop'
      | call hop' => cases hop.symm.trans hop'
  | leave hop =>
      cases h' with
      | next hop' => cases hop.symm.trans hop'
      | leave hop' =>
          obtain rfl := Outcome.leave.inj (hop.symm.trans hop')
          rfl
      | call hop' => cases hop.symm.trans hop'
  | call hop _ _ ihchild ihrest =>
      cases h' with
      | next hop' => cases hop.symm.trans hop'
      | leave hop' => cases hop.symm.trans hop'
      | call hop' hchild hrest =>
          obtain ⟨rfl, rfl⟩ := Outcome.call.inj (hop.symm.trans hop')
          obtain ⟨rfl, rfl⟩ := Prod.mk.inj (ihchild hchild)
          exact ihrest hrest

theorem outcome_immediate {op : Operation} (hplain : op.isControl = false)
    (ancestors : List Event.Id) (e : Event) (position : Nat) (voices : Voices) (s : σ) :
    outcome stage ancestors e position op voices s =
      .next (op.immediate stage voices (noteEntry stage e position op s)).1
        (op.immediate stage voices (noteEntry stage e position op s)).2 := by
  cases op with
  | flagIf flag target inlined => cases hplain
  | flagExitIf flag => cases hplain
  | flagOnce flag => cases hplain
  | _ => rfl

/-! ## Executions of instant operations -/

theorem execute_immediate {op : Operation} (hop : op.isInstant = true)
    (hplain : op.isControl = false) (e : Event) (position now : Nat) (voices : Voices) (s : σ) :
    execute stage e position op now true .fresh voices s =
      ⟨.next, (op.immediate stage voices s).1, none, (op.immediate stage voices s).2⟩ := by
  cases op with
  | say text =>
      have hnow : text.intervalMs < 0 := by simpa [Operation.isInstant] using hop
      rw [execute]
      unfold sayStep
      rw [if_pos hnow]
      rfl
  | flagIf flag target inlined => cases hplain
  | flagExitIf flag => cases hplain
  | flagOnce flag => cases hplain
  | wait duration => cases hop
  | waitForKey => cases hop
  | selection first second => cases hop
  | sceneLoad path door => cases hop
  | fadeIn duration => cases hop
  | fadeOut duration => cases hop
  | _ => rfl

theorem flagIfStep_of_flag {e : Event} {position : Nat} {flag : String} {target : Option String}
    {inlined : Option (List Operation)} {s : σ} (hflag : stage.hasFlag flag s = true) :
    flagIfStep stage e position flag target inlined s =
      match flagTarget? stage e position target inlined s with
      | some child => (.call child, s)
      | none => (.next, noteNoTarget stage flag target s) := by
  have hnamed : ∀ name, callNamed stage name s =
      match stage.findEvent name s with
      | some child => (.call child, s)
      | none => (.next, noteNoTarget stage flag (some name) s) := fun name => rfl
  unfold flagIfStep
  rw [if_pos hflag]
  rcases inlined with _ | ⟨_ | ⟨op, ops⟩⟩
  · cases target with
    | none => rfl
    | some name => exact hnamed name
  · cases target with
    | none => rfl
    | some name => exact hnamed name
  · rfl

theorem flagIfStep_of_not_flag {e : Event} {position : Nat} {flag : String}
    {target : Option String} {inlined : Option (List Operation)} {s : σ}
    (hflag : ¬stage.hasFlag flag s = true) :
    flagIfStep stage e position flag target inlined s = (.next, s) := by
  unfold flagIfStep
  rw [if_neg hflag]

end

/-! ## The stack, one operation at a time -/

/-- The frame of an event whose operation at a position is next. -/
def Frame.ready (e : Event) (position : Nat) : Frame := ⟨e, position, true, false, .fresh⟩

namespace Tracker

section

variable {σ : Type} {stage : Stage σ} {now : Nat} {e : Event} {position : Nat} {below : List Frame}
  {voices : Voices} {s : σ} {op : Operation}

/-- What the tick makes of an outcome: a call puts the event on the stack. -/
def carry (e : Event) (position : Nat) (below : List Frame) (voices : Voices) :
    Outcome σ → Tracker × σ
  | .next voices s => (⟨.ready e (position + 1) :: below, voices⟩, s)
  | .leave s => (⟨below, voices⟩, s)
  | .call child s => (⟨.ready child 0 :: (Frame.ready e position).await :: below, voices⟩, s)

theorem settle_ready (hop : e.operations[position]? = some op) :
    settle (.ready e position :: below) = .ready e position :: below :=
  settle_cons_of_not_finished (Frame.isFinished_of_operation hop)

theorem turn_ready (hop : e.operations[position]? = some op) :
    turn stage now ⟨.ready e position :: below, voices⟩ s =
      follow stage (.ready e position) below
        (execute stage e position op now true .fresh voices (noteEntry stage e position op s)) := by
  obtain ⟨op', hop', hturn⟩ := turn_active (settle_ready hop) voices s
  obtain rfl : op = op' := Option.some.inj (hop.symm.trans hop')
  exact hturn

theorem goes_immediate (hop : e.operations[position]? = some op) (hinstant : op.isInstant = true)
    (hplain : op.isControl = false) :
    Goes stage now (⟨.ready e position :: below, voices⟩, s)
      (carry e position below voices
        (outcome stage (below.map (·.event.id)) e position op voices s)) := by
  rw [Goes, turn_ready hop, execute_immediate hinstant hplain, outcome_immediate hplain]
  rfl

theorem goes_flagExitIf {flag : String}
    (hop : e.operations[position]? = some (.flagExitIf flag)) :
    Goes stage now (⟨.ready e position :: below, voices⟩, s)
      (carry e position below voices
        (outcome stage (below.map (·.event.id)) e position (.flagExitIf flag) voices s)) := by
  rw [Goes, turn_ready hop, execute, outcome]
  dsimp only
  split
  · exact follow_cancel rfl
  · exact follow_next rfl

theorem goes_flagOnce {flag : String} (hop : e.operations[position]? = some (.flagOnce flag)) :
    Goes stage now (⟨.ready e position :: below, voices⟩, s)
      (carry e position below voices
        (outcome stage (below.map (·.event.id)) e position (.flagOnce flag) voices s)) := by
  rw [Goes, turn_ready hop, execute, outcome]
  dsimp only
  split
  · exact follow_cancel rfl
  · exact follow_next rfl

theorem goes_flagIf {flag : String} {target : Option String} {inlined : Option (List Operation)}
    (hop : e.operations[position]? = some (.flagIf flag target inlined)) :
    Goes stage now (⟨.ready e position :: below, voices⟩, s)
      (carry e position below voices
        (outcome stage (below.map (·.event.id)) e position (.flagIf flag target inlined) voices
          s)) := by
  rw [Goes, turn_ready hop, execute, outcome]
  set s₁ := noteEntry stage e position (.flagIf flag target inlined) s
  by_cases hflag : stage.hasFlag flag s₁ = true
  · rw [flagIfStep_of_flag hflag, if_pos hflag]
    cases flagTarget? stage e position target inlined s₁ with
    | none => exact follow_next rfl
    | some child =>
        -- the events with frames are the caller and its ancestors
        dsimp only
        split
        · rename_i hruns
          exact follow_refused rfl (isRunning_iff.2 hruns)
        · rename_i hfree
          exact follow_call rfl (Bool.eq_false_iff.2 fun hruns => hfree (isRunning_iff.1 hruns))
  · rw [flagIfStep_of_not_flag hflag, if_neg hflag]
    exact follow_next rfl

/-- The turn of an instant operation does what the recursion makes of it. -/
theorem goes_carry (hop : e.operations[position]? = some op) (hinstant : op.isInstant = true) :
    Goes stage now (⟨.ready e position :: below, voices⟩, s)
      (carry e position below voices
        (outcome stage (below.map (·.event.id)) e position op voices s)) := by
  cases hcontrol : op.isControl with
  | false => exact goes_immediate hop hinstant hcontrol
  | true =>
      cases op with
      | flagIf flag target inlined => exact goes_flagIf hop
      | flagExitIf flag => exact goes_flagExitIf hop
      | flagOnce flag => exact goes_flagOnce hop
      | _ => cases hcontrol

end

/-! ## The recursion and the stack, side by side -/

section

variable {σ : Type} {stage : Stage σ} {now : Nat} {lib : Library} {P : σ → Prop}
  {events : Set Event} {cast : Finset Event.Id} {base : ℕ} {e : Event} {position : Nat}
  {below : List Frame} {voices : Voices} {s : σ}

/-- The recursion goes through the rest of an event, and the tick gets as far as to remove its frame
with the same state and the same memory. -/
def Agrees (stage : Stage σ) (now : Nat) (P : σ → Prop) (e : Event) (position : Nat)
    (below : List Frame) (voices : Voices) (s : σ) : Prop :=
  ∃ voices' s',
    Recites stage (below.map (·.event.id)) e position (e.operations.drop position) voices s
      (voices', s') ∧ P s' ∧
    ∀ r, Runs stage now ⟨below, voices'⟩ s' r →
      Runs stage now ⟨.ready e position :: below, voices⟩ s r

theorem agrees_finished (h : e.size ≤ position) (hs : P s) :
    Agrees stage now P e position below voices s := by
  refine ⟨voices, s, ?_, hs, ?_⟩
  · rw [List.drop_eq_nil_of_le h]
    exact .finished
  · intro r hr
    have hdone : (Frame.ready e position).resumed.isFinished = true := decide_eq_true h
    exact hr.congr (settle_cons_of_finished hdone)

/-- A frame whose called event has ended is ready for its next operation. -/
theorem runs_await {r : TickStatus × Tracker × σ}
    (h : Runs stage now ⟨.ready e (position + 1) :: below, voices⟩ s r) :
    Runs stage now ⟨(Frame.ready e position).await :: below, voices⟩ s r := by
  refine h.congr ?_
  rw [settle_cons, settle_cons, Frame.resumed_await]
  rfl

theorem drop_operation {op : Operation} (hop : e.operations[position]? = some op) :
    e.operations.drop position = op :: e.operations.drop (position + 1) := by
  obtain ⟨hlt, rfl⟩ := List.getElem?_eq_some_iff.1 hop
  exact List.drop_eq_getElem_cons hlt

theorem changesScene_ready {op : Operation} (hop : e.operations[position]? = some op)
    (hinstant : op.isInstant = true) :
    changesScene ⟨.ready e position :: below, voices⟩ = false := by
  have hpresent : (Frame.ready e position).operation? = some op := hop
  rw [changesScene, settle_ready hop]
  dsimp only
  rw [hpresent, Option.any_some, Operation.loadsScene_of_isInstant hinstant]

theorem weight_ready_lt (htroupe : Troupe lib events cast base) (he : e ∈ events)
    (hlt : position < e.operations.length) (below : List Frame) :
    weight cast base (.ready e (position + 1) :: below) <
      weight cast base (.ready e position :: below) := by
  have hbase : 0 < base := by
    have hsize := htroupe.size_le e he
    omega
  have hfin : (Frame.ready e position).isFinished = false := Frame.isFinished_eq_false_iff.2 hlt
  exact weight_advance_lt (f := .ready e position) rfl hfin hbase

/-- The recursion and the tick agree on every event of a troupe, whatever is below it. -/
theorem agrees (h : stage.Serves lib P) (htroupe : Troupe lib events cast base)
    (hinstant : ∀ e ∈ events, ∀ op ∈ e.operations, op.isInstant = true)
    (hplays : Plays P events (⟨.ready e position :: below, voices⟩, s)) :
    Agrees stage now P e position below voices s := by
  -- a turn makes the stack lighter, and so does the next operation
  induction hn : weight cast base (.ready e position :: below) using Nat.strong_induction_on
    generalizing e position below voices s with
  | _ n ih =>
      obtain ⟨he, hbelow⟩ := List.forall_mem_cons.1 hplays.event_mem
      rcases le_or_gt e.operations.length position with hge | hlt
      · exact agrees_finished hge hplays.state
      · have hop := List.getElem?_eq_getElem hlt
        have hop' := hinstant e he _ (List.getElem_mem hlt)
        have hgo : Goes stage now (⟨.ready e position :: below, voices⟩, s) _ := goes_carry hop hop'
        obtain ⟨hplays', hlighter⟩ :=
          weight_lt_of_goes h htroupe hplays (changesScene_ready hop hop') hgo
        rw [Agrees, drop_operation hop]
        cases houtcome : outcome stage (below.map (·.event.id)) e position e.operations[position]
            voices s with
        | next voices' s' =>
            rw [houtcome] at hgo hplays' hlighter
            obtain ⟨v, t, hrest, ht, hruns⟩ := ih _ (hn ▸ hlighter) hplays' rfl
            exact ⟨v, t, .next houtcome hrest, ht, fun r hr => .more hgo (hruns r hr)⟩
        | leave s' =>
            rw [houtcome] at hgo hplays'
            exact ⟨voices, s', .leave houtcome, hplays'.state, fun r hr => .more hgo hr⟩
        | call child s' =>
            rw [houtcome] at hgo hplays' hlighter
            obtain ⟨v, t, hchild, ht, hruns⟩ := ih _ (hn ▸ hlighter) hplays' rfl
            -- when the child has ended, the next operation of its caller follows
            have hplays'' : Plays P events (⟨.ready e (position + 1) :: below, v⟩, t) :=
              ⟨ht, List.forall_mem_cons.2 ⟨he, hbelow⟩⟩
            have hlighter' := weight_ready_lt htroupe he hlt below
            obtain ⟨v', t', hrest, ht', hruns'⟩ := ih _ (hn ▸ hlighter') hplays'' rfl
            exact ⟨v', t', .call houtcome hchild hrest, ht', fun r hr =>
              .more hgo (hruns r (runs_await (hruns' r hr)))⟩

/-- A tick of a stack with one event does what the recursion does, if that event and all that it can
reach consist of instant operations: the same requests to the stage in the same order, the same
speaker and the same track. -/
theorem tick_recites (h : stage.Serves lib P) {e : Event}
    (hinstant : ∀ e', e.Reaches lib e' → ∀ op ∈ e'.operations, op.isInstant = true) (now : Nat)
    (voices : Voices) (hs : P s) :
    ∃ voices' s',
      (∀ r, Recites stage [] e 0 e.operations voices s r ↔ r = (voices', s')) ∧
      Runs stage now ⟨[.start e], voices⟩ s (.idle, ⟨[], voices'⟩, s') ∧
      tick stage now ⟨[.start e], voices⟩ s = (.idle, ⟨[], voices'⟩, s') := by
  obtain ⟨cast, base, htroupe⟩ := exists_troupe lib [.start e]
  have hall : ∀ e' ∈ reachable lib [.start e], ∀ op ∈ e'.operations, op.isInstant = true := by
    rintro e' ⟨f, hf, hreach⟩
    obtain rfl := List.mem_singleton.1 hf
    exact hinstant e' hreach
  have hplays : Plays P (reachable lib [.start e]) (⟨[.start e], voices⟩, s) :=
    ⟨hs, fun f hf => ⟨f, hf, .refl⟩⟩
  have hagrees : Agrees stage now P e 0 [] voices s := agrees h htroupe hall hplays
  obtain ⟨voices', s', hrec, -, hruns⟩ := hagrees
  have hidle : Runs stage now ⟨[.start e], voices⟩ s (.idle, ⟨[], voices'⟩, s') :=
    hruns _ (.ended (turn_idle rfl voices' s'))
  refine ⟨voices', s', ?_, hidle, hidle.tick_eq⟩
  intro r
  constructor
  · intro hr
    exact hr.unique hrec
  · rintro rfl
    exact hrec

end

theorem tick_recites_circle :
    let e := Event.make 0 (some "ping") [.flagIf "on" (some "pong") none, .flagOnce "on"]
    let s := Rehearsal.opening circle (.ofList ["on"])
    ∃ voices' s',
      (∀ r, Recites Rehearsal.stage [] e 0 e.operations .silent s r ↔ r = (voices', s')) ∧
      Runs Rehearsal.stage 0 ⟨[.start e], .silent⟩ s (.idle, ⟨[], voices'⟩, s') ∧
      tick Rehearsal.stage 0 ⟨[.start e], .silent⟩ s = (.idle, ⟨[], voices'⟩, s') := by
  refine tick_recites (Rehearsal.stage_serves circle) ?_ 0 .silent rfl
  intro e hreach op hop
  have hpass : Operation.passesAll Operation.isInstant e.operations = true :=
    Event.passesAll_of_reaches (fun _ _ hfind => passesAll_circle (fun _ _ => rfl) hfind) rfl hreach
  exact Operation.of_passes (Operation.passesAll_iff.1 hpass op hop)

end Tracker

end Cutscene
