import Mathlib.Data.Set.Finite.Lattice
import Mathlib.Logic.Relation
import Cutscene.Event.Library
import Cutscene.Proofs.Stage.Upkeep
import Cutscene.Proofs.Tracker.Turns

/-!
# Who can call whom

An operation names the events it can call, or holds their operations inline. With the events of one
library this makes a graph on events (`Event.Calls`), which may well have cycles. Two facts about it
carry everything that is said about nested events:

* an execution that calls an event goes along an edge of the graph (`Stage.Serves.calls`);
* from finitely many events only finitely many can be reached (`Event.finite_reaches`), because a
  library is finite and inline operations are parts of the operation that holds them.
-/

namespace Cutscene

namespace Operation

/-- The names that an operation can call. -/
def names : Operation → List String
  | selection first second => [first.event, second.event]
  | flagIf _ (some name) none => [name]
  | flagIf _ (some name) (some []) => [name]
  | _ => []

/-- The operations that an operation can call inline; an empty list is never called. -/
def inlineBody? : Operation → Option (List Operation)
  | flagIf _ _ (some (op :: ops)) => some (op :: ops)
  | _ => none

mutual

/-- Whether an operation and all operations that it holds inline pass a check. -/
def passes (p : Operation → Bool) : Operation → Bool
  | flagIf flag target (some ops) => p (flagIf flag target (some ops)) && passesAll p ops
  | op => p op

/-- Whether all operations of a list pass a check, and all that they hold inline. -/
def passesAll (p : Operation → Bool) : List Operation → Bool
  | [] => true
  | op :: ops => op.passes p && passesAll p ops

end

theorem passesAll_iff {p : Operation → Bool} {ops : List Operation} :
    passesAll p ops = true ↔ ∀ op ∈ ops, op.passes p = true := by
  induction ops with
  | nil => simp [passesAll]
  | cons op ops ih => simp [passesAll, ih]

theorem of_passes {p : Operation → Bool} {op : Operation} (h : op.passes p = true) :
    p op = true := by
  unfold passes at h
  split at h
  · exact (Bool.and_eq_true_iff.1 h).1
  · exact h

theorem passesAll_inlineBody {p : Operation → Bool} {op : Operation}
    {body : List Operation} (h : op.passes p = true) (hbody : op.inlineBody? = some body) :
    passesAll p body = true := by
  unfold inlineBody? at hbody
  split at hbody
  · obtain rfl := Option.some.inj hbody
    rw [passes] at h
    exact (Bool.and_eq_true_iff.1 h).2
  · cases hbody

end Operation

namespace Event

/-- The operation at a position of an event can call another event. -/
inductive CallsAt (lib : Library) (e : Event) (position : Nat) (op : Operation) : Event → Prop
  | named {name : String} {e' : Event} (hname : name ∈ op.names)
      (hfind : lib.find? name = some e') : CallsAt lib e position op e'
  | inlined {body : List Operation} (hbody : op.inlineBody? = some body) :
      CallsAt lib e position op (e.inlined position body)

/-- An operation of one event can call another. -/
def Calls (lib : Library) (e e' : Event) : Prop :=
  ∃ position op, e.operations[position]? = some op ∧ CallsAt lib e position op e'

/-- One event can call another, directly or through the events it calls. -/
def Reaches (lib : Library) : Event → Event → Prop := Relation.ReflTransGen (Calls lib)

/-- A check that the events of the library and one event pass is passed by all that this event can
reach. -/
theorem passesAll_of_reaches {p : Operation → Bool} {lib : Library}
    (hlib : ∀ name e, lib.find? name = some e → Operation.passesAll p e.operations = true)
    {e e' : Event} (he : Operation.passesAll p e.operations = true) (hreach : e.Reaches lib e') :
    Operation.passesAll p e'.operations = true := by
  induction hreach with
  | refl => exact he
  | tail _ hcall ih =>
      obtain ⟨position, op, hop, hcall⟩ := hcall
      cases hcall with
      | named hname hfind => exact hlib _ _ hfind
      | inlined hbody =>
          exact Operation.passesAll_inlineBody
            (Operation.passesAll_iff.1 ih _ (List.mem_of_getElem? hop)) hbody

/-! ## Only finitely many events can be reached -/

theorem sizeOf_inlineBody {op : Operation} {body : List Operation}
    (h : op.inlineBody? = some body) : sizeOf body < sizeOf op := by
  unfold Operation.inlineBody? at h
  split at h
  · obtain rfl := Option.some.inj h
    simp only [Operation.flagIf.sizeOf_spec, Option.some.sizeOf_spec]
    omega
  · exact absurd h (by simp)

/-- An event that is written inside another. -/
inductive Holds (e : Event) : Event → Prop
  | mk {position : Nat} {op : Operation} {body : List Operation}
      (hop : e.operations[position]? = some op) (hbody : op.inlineBody? = some body) :
      Holds e (e.inlined position body)

/-- What is held at one position of an event, if an event is written there. -/
def heldAt (e : Event) (position : Nat) : Set Event :=
  {e' | ∃ op body, e.operations[position]? = some op ∧ op.inlineBody? = some body ∧
    Relation.ReflTransGen Holds (e.inlined position body) e'}

theorem finite_heldAt {e : Event} {position : Nat}
    (h : ∀ op body, e.operations[position]? = some op → op.inlineBody? = some body →
      {e' | Relation.ReflTransGen Holds (e.inlined position body) e'}.Finite) :
    (e.heldAt position).Finite := by
  by_cases hex : ∃ op body, e.operations[position]? = some op ∧ op.inlineBody? = some body
  · obtain ⟨op, body, hop, hbody⟩ := hex
    refine (h op body hop hbody).subset ?_
    rintro e' ⟨op', body', hop', hbody', hreach⟩
    obtain rfl : op = op' := Option.some.inj (hop.symm.trans hop')
    obtain rfl : body = body' := Option.some.inj (hbody.symm.trans hbody')
    exact hreach
  · refine Set.finite_empty.subset ?_
    rintro e' ⟨op, body, hop, hbody, -⟩
    exact hex ⟨op, body, hop, hbody⟩

/-- An event holds finitely many events, however deep they are nested. -/
theorem finite_holds (e : Event) : {e' | Relation.ReflTransGen Holds e e'}.Finite := by
  -- what is written inside an event is smaller than the event
  induction h : sizeOf e.operations using Nat.strong_induction_on generalizing e with
  | _ n ih =>
      have hheld : ∀ position, (e.heldAt position).Finite := by
        intro position
        refine finite_heldAt fun op body hop hbody => ih (sizeOf body) ?_ _ rfl
        have h₁ := sizeOf_inlineBody hbody
        have h₂ := List.sizeOf_lt_of_mem (List.mem_of_getElem? hop)
        omega
      refine ((Set.finite_singleton e).union
        ((Set.finite_lt_nat e.operations.length).biUnion fun i _ => hheld i)).subset ?_
      intro e' he'
      rcases Relation.ReflTransGen.cases_head he' with rfl | ⟨e₁, ⟨hop, hbody⟩, hreach⟩
      · exact Or.inl rfl
      · exact Or.inr (Set.mem_biUnion (List.getElem?_eq_some_iff.1 hop).1
          ⟨_, _, hop, hbody, hreach⟩)

theorem finite_named (lib : Library) : {e | ∃ name, lib.find? name = some e}.Finite := by
  refine (List.finite_toSet (lib.events.toList.map (·.2))).subset ?_
  rintro e ⟨name, hfind⟩
  exact List.mem_map.2 ⟨(name, e), Std.ExtTreeMap.mem_toList_iff_getElem?_eq_some.2 hfind, rfl⟩

/-- From finitely many events only finitely many can be reached. -/
theorem finite_reaches (lib : Library) {roots : Set Event} (hroots : roots.Finite) :
    {e | ∃ r ∈ roots, Reaches lib r e}.Finite := by
  -- whatever is reached is held by a root or by an event of the library
  refine ((hroots.union (finite_named lib)).biUnion fun e _ => finite_holds e).subset ?_
  rintro e ⟨r, hr, hreach⟩
  induction hreach with
  | refl => exact Set.mem_biUnion (Or.inl hr) .refl
  | tail _ hcall ih =>
      obtain ⟨position, op, hop, hcall⟩ := hcall
      cases hcall with
      | named hname hfind => exact Set.mem_biUnion (Or.inr ⟨_, hfind⟩) .refl
      | inlined hbody =>
          obtain ⟨r', hr', hheld⟩ := Set.mem_iUnion₂.1 ih
          exact Set.mem_biUnion hr' (hheld.tail ⟨hop, hbody⟩)

end Event

/-! ## Executions call along the graph -/

/-- The flow stays with the event: it neither calls another nor ends it. -/
def Flow.Stays : Flow → Prop
  | next => True
  | suspend _ => True
  | call _ => False
  | cancel => False

section

variable {σ : Type} (stage : Stage σ)

theorem typeOut_stays (say : Say) (voices : Voices) (now offset revealed : Nat) (last : Option Nat)
    (s : σ) : (typeOut stage say voices now offset revealed last s).1.Stays := by
  have hend : ∀ (done : Prop) [Decidable done] (p : Progress) (s : σ),
      (if done then (Flow.next, endSpeech stage voices s) else (Flow.suspend p, s)).1.Stays := by
    intro done _ p s
    split <;> trivial
  unfold typeOut
  dsimp only
  split
  · exact hend _ _ _
  · exact hend _ _ _

theorem sayStep_stays (say : Say) (voices : Voices) (now : Nat) (entering : Bool)
    (progress : Progress) (s : σ) :
    (sayStep stage say voices now entering progress s).1.Stays := by
  unfold sayStep
  extract_lets s
  split
  · trivial
  · split
    · exact typeOut_stays stage say voices _ _ _ _ s
    · exact typeOut_stays stage say voices _ _ _ _ s

theorem waitStep_stays (duration now : Nat) (entering : Bool) (progress : Progress) :
    (waitStep duration now entering progress).Stays := by
  unfold waitStep
  extract_lets started
  split <;> trivial

theorem keyStep_stays (entering : Bool) (s : σ) : (keyStep stage entering s).1.Stays := by
  unfold keyStep
  extract_lets s'
  rcases stage.consume .activate s' with ⟨pressed, s₁⟩
  cases pressed <;> trivial

theorem fadeStep_stays (out : Bool) (duration now : Nat) (entering : Bool) (progress : Progress)
    (s : σ) : (fadeStep stage out duration now entering progress s).1.Stays := by
  unfold fadeStep
  dsimp only
  split
  · split <;> trivial
  · split <;> trivial

variable {stage}

/-- Only a change of scene queues an event. -/
theorem queued_execute (event : Event) (position : Nat) {op : Operation} (now : Nat)
    (entering : Bool) (progress : Progress) (voices : Voices) (s : σ)
    (hop : op.loadsScene = false) :
    (execute stage event position op now entering progress voices s).queued = none := by
  cases op with
  | sceneLoad path door => exact absurd hop (by simp [Operation.loadsScene])
  | _ => rfl

namespace Stage.Serves

variable {lib : Library} {P : σ → Prop}

theorem find_of_callNamed (h : stage.Serves lib P) {name : String} {e : Event} {s : σ} (hs : P s)
    (hflow : (callNamed stage name s).1 = .call e) : lib.find? name = some e := by
  rw [← h.find s hs name]
  unfold callNamed at hflow
  split at hflow
  · rename_i hfind
    rw [hfind, Flow.call.inj hflow]
  · exact absurd hflow (by simp)

theorem find_of_selectionStep (h : stage.Serves lib P) {first second : Choice} {entering : Bool}
    {progress : Progress} {e : Event} {s : σ} (hs : P s)
    (hflow : (selectionStep stage first second entering progress s).1 = .call e) :
    ∃ name ∈ [first.event, second.event], lib.find? name = some e := by
  unfold selectionStep at hflow
  extract_lets highlighted s' r₁ r₂ at hflow
  have hs' : P s' := by
    unfold s'
    split
    · exact h.showOptions _ _ _ s hs
    · exact hs
  have hr : P r₂.2 := h.navigate first second _ _ (h.navigate first second _ _ hs')
  rcases hc : stage.consume .activate r₂.2 with ⟨chosen, s₁⟩
  rw [hc] at hflow
  have hs₁ : P s₁ := h.of_consume_eq hr hc
  cases chosen with
  | false => exact absurd hflow (by simp)
  | true =>
      refine ⟨_, ?_, h.find_of_callNamed (h.hideOptions _ hs₁) hflow⟩
      cases r₂.1 <;> simp

theorem calls_of_flagIfStep (h : stage.Serves lib P) {event : Event} {position : Nat}
    {flag : String} {target : Option String} {inlined : Option (List Operation)} {e : Event} {s : σ}
    (hs : P s) (hflow : (flagIfStep stage event position flag target inlined s).1 = .call e) :
    event.CallsAt lib position (.flagIf flag target inlined) e := by
  unfold flagIfStep at hflow
  split at hflow
  · split at hflow
    · obtain rfl := Flow.call.inj hflow
      exact .inlined rfl
    · rename_i name hempty
      refine .named ?_ (h.find_of_callNamed hs hflow)
      rcases inlined with _ | ⟨_ | ⟨op, ops⟩⟩
      · exact List.mem_singleton_self name
      · exact List.mem_singleton_self name
      · exact absurd rfl (hempty op ops)
    · exact absurd hflow (by simp)
  · exact absurd hflow (by simp)

/-- An execution that calls an event goes along an edge of the call graph. -/
theorem calls (h : stage.Serves lib P) {event : Event} {position : Nat} {op : Operation} {now : Nat}
    {entering : Bool} {progress : Progress} {voices : Voices} {e : Event} {s : σ} (hs : P s)
    (hflow : (execute stage event position op now entering progress voices s).flow = .call e) :
    event.CallsAt lib position op e := by
  have hstays : ∀ f : Flow, f.Stays → f ≠ .call e := by
    rintro f hf rfl
    exact hf
  cases op with
  | say say =>
      rw [execute, Effect.flow_plain] at hflow
      exact absurd hflow (hstays _ (sayStep_stays stage say voices now entering progress s))
  | wait duration =>
      rw [execute, Effect.flow_plain] at hflow
      exact absurd hflow (hstays _ (waitStep_stays _ now entering progress))
  | waitForKey =>
      rw [execute, Effect.flow_plain] at hflow
      exact absurd hflow (hstays _ (keyStep_stays stage entering s))
  | selection first second =>
      rw [execute, Effect.flow_plain] at hflow
      obtain ⟨name, hname, hfind⟩ := h.find_of_selectionStep hs hflow
      exact .named hname hfind
  | flagIf flag target inlined =>
      rw [execute, Effect.flow_plain] at hflow
      exact h.calls_of_flagIfStep hs hflow
  | fadeIn duration =>
      rw [execute, Effect.flow_plain] at hflow
      exact absurd hflow (hstays _ (fadeStep_stays stage false _ now entering progress s))
  | fadeOut duration =>
      rw [execute, Effect.flow_plain] at hflow
      exact absurd hflow (hstays _ (fadeStep_stays stage true _ now entering progress s))
  | flagExitIf flag =>
      rw [execute, Effect.flow_plain] at hflow
      split at hflow <;> cases hflow
  | flagOnce flag =>
      rw [execute, Effect.flow_plain] at hflow
      split at hflow <;> cases hflow
  | _ => exact absurd hflow (hstays .next trivial)

end Stage.Serves

/-! ## The operation of a frame -/

section

variable {lib : Library} {P : σ → Prop} {now : Nat} {f : Frame} {op : Operation} {voices : Voices}
  {s : σ}

theorem Stage.Keeps.perform (h : stage.Keeps P) (hop : op.loadsScene = false) (hs : P s) :
    P (f.perform stage now op voices s).state :=
  h.execute _ _ now _ _ voices hop (h.say _ _ hs)

theorem Stage.Serves.calls_of_perform (h : stage.Serves lib P) {e : Event} (hs : P s)
    (hflow : (f.perform stage now op voices s).flow = .call e) :
    f.event.CallsAt lib f.cursor op e :=
  h.calls (h.say _ _ hs) hflow

theorem queuedBelow_perform (hop : op.loadsScene = false) (below : List Frame) :
    Tracker.queuedBelow (f.perform stage now op voices s) below = below := by
  rw [Tracker.queuedBelow, Frame.perform, queued_execute _ _ now _ _ voices _ hop]

end

end

end Cutscene
