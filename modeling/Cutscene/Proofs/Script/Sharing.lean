import Mathlib.Data.List.Induction
import Cutscene.Proofs.Script.History

/-!
# Shared values over time

A script that looks a name up is given what was put under it last, whoever did that: a thread, a
script that the host has loaded in the meantime, or the host (`latest_of_fetch?`). Nothing else
touches what is shared, so this holds over the whole history of a runtime (`looked_up_latest`).

The history begins when the runtime takes over the machine. What the statements of the script have
shared before, while it was loaded, they find themselves, but no thread ever does
(`forgotten_after_loading`).
-/

namespace Cutscene

namespace Script

/-- A value was put under a name last, or it is nil because none was. -/
def Latest (name : String) (v : Value) (deeds : List Deed) : Prop :=
  (∃ before after, deeds = before ++ .shared name v :: after ∧ ∀ v', .shared name v' ∉ after) ∨
    v = .nil ∧ ∀ v', .shared name v' ∉ deeds

variable {name : String} {v : Value} {deeds : List Deed} {d : Deed}

theorem Latest.shared (name : String) (v : Value) (deeds : List Deed) :
    Latest name v (deeds ++ [.shared name v]) :=
  .inl ⟨deeds, [], rfl, fun _ => List.not_mem_nil⟩

/-- Another deed changes nothing. -/
theorem Latest.concat (h : Latest name v deeds) (hd : ∀ v', d ≠ .shared name v') :
    Latest name v (deeds ++ [d]) := by
  have hnotMem : ∀ {after : List Deed}, (∀ v', .shared name v' ∉ after) →
      ∀ v', .shared name v' ∉ after ++ [d] := by
    intro after hafter v' hmem
    rcases List.mem_append.mp hmem with hmem | hmem
    · exact hafter v' hmem
    · exact hd v' (List.mem_singleton.mp hmem).symm
  rcases h with ⟨before, after, rfl, hafter⟩ | ⟨hnil, hnone⟩
  · exact .inl ⟨before, after ++ [d], by simp, hnotMem hafter⟩
  · exact .inr ⟨hnil, hnotMem hnone⟩

/-- Only a deed that puts a value under a name changes what there is. -/
theorem fetch?_after {m : Marks} (hd : ∀ v', d ≠ .shared name v') :
    (m.after d).registry.fetch? name = m.registry.fetch? name := by
  cases d with
  | shared other v' =>
      have hne : other ≠ name := by
        rintro rfl
        exact hd v' rfl
      show (m.registry.publish other v').1.fetch? name = _
      rw [Registry.fetch?_publish, if_neg (mt Std.LawfulEqCmp.eq_of_compare hne)]
  | _ => rfl

/-- What there is under a name after some deeds was put there last. -/
theorem latest_of_fetch? {m : Marks} (hempty : m.registry.fetch? name = none)
    (deeds : List Deed) :
    Latest name (((deeds.foldl Marks.after m).registry.fetch? name).getD .nil) deeds := by
  induction deeds using List.reverseRecOn with
  | nil =>
      rw [List.foldl_nil, hempty]
      exact .inr ⟨rfl, fun _ => List.not_mem_nil⟩
  | append_singleton deeds d ih =>
      rw [List.foldl_concat]
      by_cases hd : ∃ v', d = .shared name v'
      · obtain ⟨v', rfl⟩ := hd
        show Latest name
          ((((deeds.foldl Marks.after m).registry.publish name v').1.fetch? name).getD .nil) _
        rw [Registry.fetch?_publish, if_pos Std.ReflCmp.compare_self]
        exact .shared name v' deeds
      · have hd : ∀ v', d ≠ .shared name v' := fun v' heq => hd ⟨v', heq⟩
        rw [fetch?_after hd]
        exact ih.concat hd

/-- Whatever is done from marks without shared values on, a name that is looked up leads to what was
put under it last. -/
theorem latest_of_leads {m m' : Marks} (hempty : m.registry = .empty) (h : m.Leads deeds m')
    {before after : List Deed} (heq : deeds = before ++ .looked name v :: after) :
    Latest name v before := by
  subst heq
  obtain rfl : v = _ := h.allows
  refine latest_of_fetch? ?_ before
  rw [hempty]
  simp [Registry.fetch?, Registry.empty]

/-- Over the whole life of a runtime, through any ticks and whatever its host does, a script that
looks a name up is given what was put under it last since the runtime was opened, or nil if nothing
was. So are the statements of the script while it is loaded, with what they have shared themselves.
A scene with the script has such a runtime, from its start on and after every tick. -/
theorem looked_up_latest (c : Chunk) (s : State) (hempty : s.memory.registry = .empty)
    (watchdog : Watchdog) (ms : List Move) :
    let o := Runtime.opening watchdog (c.load s).2
    (∀ before name v after, c.deeds s = before ++ .looked name v :: after →
      Latest name v before) ∧
    (∀ before name v after, o.history ms = before ++ .looked name v :: after →
      Latest name v before) ∧
    (∀ (sources : Sources) (path : String) (r : Reach) (scripts : SceneScripts),
      sources.script path = .ok (some c) → scripts.Lives sources watchdog path r →
        ∃ ms, scripts.Behind ((Runtime.opening watchdog
          (c.load (r.withMemory (.initial Builtin.standard))).2).moves ms)) := by
  intro o
  refine ⟨fun _ _ _ _ heq => latest_of_leads hempty (performs_load c s).leads heq,
    fun _ _ _ _ heq => latest_of_leads rfl (o.leads_history ms) heq, ?_⟩
  intro sources path r scripts hscript hlives
  obtain ⟨c', ms, hscript', hbehind⟩ := hlives.exists_runtime
  obtain rfl : c' = c := Option.some.inj (Except.ok.inj (hscript'.symm.trans hscript))
  exact ⟨ms, hbehind⟩

/-- A function that makes known who the boss is, one that asks for it, and what is made known when
the script is loaded. -/
def gossip (main : List Statement) : Chunk where
  functions := [("asks", [.return [.call "get_shared" [.text "boss".toUTF8]]]),
    ("tells", [.call "make_shared" [.boolean true, .text "boss".toUTF8]])]
  main

/-- Threads that are created and resumed one after the other. -/
def oneByOne (names : List String) : List Move :=
  names.map (fun name => .create (.global name) none true) ++ names.map fun _ => .turn 0

/-- A scene with the script. -/
def gossipSources : Sources where
  scene path := ([], .error (.file path .notFound))
  script _ := .ok (some (gossip []))

/-- One thread tells, and the other one asks. The scripts of a scene without threads go through a
tick. -/
theorem looked_up_latest_told :
    (∃ before after, (Runtime.opening ⟨100⟩ ((gossip []).load freshState).2).history
        (oneByOne ["tells", "asks"]) = before ++ .looked "boss" (.boolean true) :: after ∧
      Latest "boss" (.boolean true) before) ∧
    (∃ scripts r', SceneScripts.start gossipSources ⟨100⟩ "hall" ⟨.empty, #[]⟩ =
        (.ok scripts, r') ∧
      ∀ clock, ∃ ms, (scripts.tick clock r').1.Behind ((Runtime.opening ⟨100⟩
        ((gossip []).load (Reach.withMemory ⟨.empty, #[]⟩ (.initial Builtin.standard))).2).moves
          ms)) := by
  obtain ⟨-, hlatest, hscene⟩ := looked_up_latest (gossip []) freshState rfl ⟨100⟩
    (oneByOne ["tells", "asks"])
  constructor
  · have hhistory : (Runtime.opening ⟨100⟩ ((gossip []).load freshState).2).history
        (oneByOne ["tells", "asks"]) = [.began, .shared "boss" (.boolean true), .collected, .began] ++
          .looked "boss" (.boolean true) :: [.collected] := by
      rfl
    exact ⟨_, _, hhistory, hlatest _ _ _ _ hhistory⟩
  · have hstarted : ∃ scripts r', SceneScripts.start gossipSources ⟨100⟩ "hall" ⟨.empty, #[]⟩ =
        (.ok scripts, r') ∧ scripts.scheduler.threads = [] := ⟨_, _, by rfl, by rfl⟩
    obtain ⟨scripts, r', hstart, hthreads⟩ := hstarted
    refine ⟨scripts, r', hstart, fun clock => ?_⟩
    have hturn : Scheduler.turn machine 0 scripts.scheduler (scripts.state clock r') = none := by
      rw [Scheduler.turn, hthreads, List.getElem?_nil]
    exact hscene gossipSources "hall" _ _ rfl (.tick (.start hstart) clock r' (.done hturn))

/-- What a script tells when it is loaded is not there any more when its first thread asks. -/
theorem forgotten_after_loading :
    let c := gossip [.call "tells" []]
    let o := Runtime.opening ⟨100⟩ (c.load freshState).2
    ∃ before after, o.history (oneByOne ["asks"]) = before ++ .looked "boss" .nil :: after ∧
      ¬Latest "boss" .nil (c.deeds freshState ++ before) := by
  have hdeeds : (gossip [.call "tells" []]).deeds freshState =
      [.shared "boss" (.boolean true)] := by
    rfl
  have hhistory : (Runtime.opening ⟨100⟩ ((gossip [.call "tells" []]).load freshState).2).history
      (oneByOne ["asks"]) = [.began] ++ .looked "boss" .nil :: [.collected] := by
    rfl
  refine ⟨_, _, hhistory, ?_⟩
  rw [hdeeds]
  rintro (⟨before, after, heq, -⟩ | ⟨-, hnone⟩)
  · have hmem : .shared "boss" .nil ∈ before ++ .shared "boss" .nil :: after :=
      List.mem_append_right _ List.mem_cons_self
    rw [← heq] at hmem
    simp at hmem
  · exact hnone (.boolean true) List.mem_cons_self

end Script

end Cutscene
