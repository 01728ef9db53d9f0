import Cutscene.CommandLine.Run
import Cutscene.Proofs.Json.Entries
import Cutscene.Proofs.Session.Attending
import Cutscene.Proofs.Text.Parts

/-!
# The clock of a run

A run plays as many frames as it is told and adds the time of a frame to its clock after each of
them. Both are numbers of 64 bits, and the clock has whole seconds of 64 bits and nanoseconds
(`Duration`), so the clock can hold less than the product of both.

Nothing in a frame touches the clock but its end (`Session.clock_frame`). So whether the clock
overflows depends on the two numbers only, and the bound is where it looks to be: a run overflows
exactly if its frames take 1000 times 2⁶⁴ milliseconds or more (`clock_overflows_iff`).
-/

namespace Cutscene

/-! ## Durations -/

namespace CommandLine

/-- A span of time: whole seconds of 64 bits, and nanoseconds. -/
structure Duration where
  seconds : UInt64
  nanos : Nat
  nanos_lt : nanos < 1000000000

namespace Duration

/-- No time at all. -/
def zero : Duration := ⟨0, 0, by decide⟩

/-- All of a span of time in nanoseconds. -/
def total (d : Duration) : Nat := d.seconds.toNat * 1000000000 + d.nanos

/-- Some milliseconds, below 2⁶⁴. -/
def ofMillis (ms : Nat) : Duration := ⟨.ofNat (ms / 1000), ms % 1000 * 1000000, by omega⟩

/-- Two spans of time one after the other, if their seconds can be kept. -/
def add? (d e : Duration) : Option Duration :=
  let seconds := d.seconds.toNat + e.seconds.toNat + (d.nanos + e.nanos) / 1000000000
  if seconds < UInt64.size then
    some ⟨.ofNat seconds, (d.nanos + e.nanos) % 1000000000, Nat.mod_lt _ (by decide)⟩
  else none

/-- A span of time some times over, added up one after the other. -/
def times? (d : Duration) : Nat → Option Duration
  | 0 => some zero
  | n + 1 => (times? d n).bind (·.add? d)

variable {d e f : Duration}

theorem total_ofMillis {ms : Nat} (h : ms < UInt64.size) : (ofMillis ms).total = ms * 1000000 := by
  have hseconds : (UInt64.ofNat (ms / 1000)).toNat = ms / 1000 := by
    rw [UInt64.toNat_ofNat']
    exact Nat.mod_eq_of_lt ((Nat.div_le_self ms 1000).trans_lt h)
  rw [total, ofMillis, hseconds]
  dsimp only
  omega

theorem total_lt (d : Duration) : d.total < clockLimit := by
  have hseconds : d.seconds.toNat < UInt64.size := d.seconds.toNat_lt_size
  have hnanos : d.nanos < 1000000000 := d.nanos_lt
  unfold total clockLimit
  omega

/-- The seconds of a sum fit exactly if the sum is a span of time. -/
theorem total_add_lt_iff :
    d.seconds.toNat + e.seconds.toNat + (d.nanos + e.nanos) / 1000000000 < UInt64.size ↔
      d.total + e.total < clockLimit := by
  unfold total clockLimit
  omega

theorem total_of_add? (h : d.add? e = some f) : f.total = d.total + e.total := by
  unfold add? at h
  dsimp only at h
  split at h
  · rename_i hfits
    obtain rfl := Option.some.inj h
    rw [total, UInt64.toNat_ofNat', Nat.mod_eq_of_lt hfits, total, total]
    dsimp only
    omega
  · cases h

theorem add?_eq_none_iff : d.add? e = none ↔ clockLimit ≤ d.total + e.total := by
  unfold add?
  dsimp only
  rw [← Nat.not_lt, ← total_add_lt_iff]
  split
  · rename_i hfits
    exact ⟨nofun, fun h => absurd hfits h⟩
  · rename_i hfits
    exact ⟨fun _ => hfits, fun _ => rfl⟩

/-- Added up, a span of time is what it is in nanoseconds, or too long. -/
theorem times?_cases (d : Duration) (n : Nat) :
    (n * d.total < clockLimit ∧ ∃ e, d.times? n = some e ∧ e.total = n * d.total) ∨
      (clockLimit ≤ n * d.total ∧ d.times? n = none) := by
  induction n with
  | zero => exact .inl ⟨by simp [clockLimit], zero, rfl, by simp [total, zero]⟩
  | succ n ih =>
      rw [times?, Nat.succ_mul]
      rcases ih with ⟨-, e, he, htotal⟩ | ⟨hlate, hnone⟩
      · rw [he, Option.bind_some]
        cases hsum : e.add? d with
        | none =>
            rw [add?_eq_none_iff, htotal] at hsum
            exact .inr ⟨hsum, rfl⟩
        | some f =>
            have hf : f.total = n * d.total + d.total := by rw [total_of_add? hsum, htotal]
            exact .inl ⟨hf ▸ f.total_lt, f, rfl, hf⟩
      · rw [hnone, Option.bind_none]
        exact .inr ⟨by omega, rfl⟩

theorem times?_eq_none_iff {n : Nat} : d.times? n = none ↔ clockLimit ≤ n * d.total := by
  rcases d.times?_cases n with ⟨hlt, e, he, -⟩ | ⟨hle, hnone⟩
  · simp [he, hlt]
  · simp [hnone, hle]

end Duration

end CommandLine

/-! ## What a frame does to the clock -/

namespace Session

variable [Interpreter]

/-- The time of a session and how it runs. -/
def clock (s : Session) : Nat × SessionConfig := (s.now, s.config)

section

variable (sources : Sources) (s : Session)

theorem clock_takeWalk : (s.takeWalk sources).clock = s.clock := by
  unfold takeWalk
  split
  · unfold walk
    split
    · rfl
    · split <;> rfl
  · rfl

theorem clock_pushButton : (s.pushButton sources).clock = s.clock := by
  unfold pushButton
  split
  · split <;> rfl
  · rfl

theorem clock_closeIdleBox (status : TickStatus) : (closeIdleBox status s).clock = s.clock := by
  unfold closeIdleBox
  split <;> rfl

/-- A frame adds its time to the clock, whatever happens in it. -/
theorem clock_frame : (frame sources s).clock = (s.now + s.config.frame, s.config) := by
  have hbegun : (beginFrame sources s).clock = s.clock :=
    (clock_pushButton sources _).trans (clock_takeWalk sources s)
  have hran : (runEvents sources (beginFrame sources s)).2.clock = s.clock := hbegun
  have hfinished : ∀ (status : TickStatus) (s' : Session), s'.clock = s.clock →
      (finishFrame sources status s').clock = (s.now + s.config.frame, s.config) := by
    intro status s' hs'
    have hanswered : ((((closeIdleBox status s').followScene sources).runScripts sources).answerCalls
        sources).clock = s.clock := by
      obtain ⟨tracker, scripts, chronicle, heq⟩ := exists_rest_eq sources (closeIdleBox status s')
      rw [heq]
      exact (clock_closeIdleBox s' status).trans hs'
    obtain ⟨hnow, hconfig⟩ := Prod.mk.inj hanswered
    rw [← hnow, ← hconfig]
    rfl
  exact hfinished _ _ hran

end

/-- A session begins at time zero. -/
theorem clock_load {sources : Sources} {config : SessionConfig} {path : String}
    {lines : List Line} {s : Session} (h : load sources config path = (lines, .ok s)) :
    s.clock = (0, config) := by
  have hopening : ∀ w, (opening sources config w).clock = (0, config) := by
    intro w
    unfold opening
    dsimp only
    split <;> rfl
  obtain ⟨_, first, _, _, _, _, rfl⟩ := exists_scripted_of_load h
  exact hopening (World.ofScene first)

end Session

/-! ## Runs -/

namespace CommandLine

/-- The frames of a run return, up to the last one or to the one after which the time cannot be
kept. -/
inductive Plays (sources : Sources) (args : Arguments) :
    Nat → Nat → Session → Except Failure Session → Prop
  | done {number : Nat} {s : Session} : Plays sources args number 0 s (.ok s)
  | late {number count : Nat} {s : Session} {r : TickStatus × Tracker × World} {f : Failure}
      (hreturns : Session.FrameReturns sources (args.input number s) r)
      (hlate : checkClock ((args.input number s).frame sources) = .error f) :
      Plays sources args number (count + 1) s (.error f)
  | next {number count : Nat} {s s' : Session} {r : TickStatus × Tracker × World}
      {result : Except Failure Session}
      (hreturns : Session.FrameReturns sources (args.input number s) r)
      (hkept : checkClock ((args.input number s).frame sources) = .ok s')
      (hrest : Plays sources args (number + 1) count s' result) :
      Plays sources args number (count + 1) s result

section

variable {sources : Sources} {args : Arguments} {number count : Nat} {s s' : Session}
  {result : Except Failure Session}

theorem Plays.play_eq (h : Plays sources args number count s result) :
    play sources args number count s = result := by
  induction h with
  | done => rfl
  | late _ hlate => rw [play, hlate]
  | next _ hkept _ ih =>
      rw [play, hkept]
      exact ih

/-- The input for a frame does not touch the clock. -/
theorem clock_input (args : Arguments) (number : Nat) (s : Session) :
    (args.input number s).clock = s.clock := by
  have hpressed : ∀ (presses : List PressAt) (s : Session),
      (presses.foldl (fun s p => s.press p.control) s).clock = s.clock := by
    intro presses
    induction presses with
    | nil => exact fun s => rfl
    | cons p presses ih => exact fun s => ih (s.press p.control)
  unfold Arguments.input
  dsimp only
  split
  · exact hpressed _ s
  · exact hpressed _ s

/-- A frame of a run adds its time to the clock. -/
theorem clock_played (sources : Sources) (args : Arguments) (number : Nat) (s : Session) :
    ((args.input number s).frame sources).clock = (s.now + s.config.frame, s.config) := by
  obtain ⟨hnow, hconfig⟩ := Prod.mk.inj (clock_input args number s)
  rw [Session.clock_frame, hnow, hconfig]

/-- A run ends at the time that its frames take, or breaks off if that cannot be kept. -/
theorem Plays.cases_clock (h : Plays sources args number count s result)
    (hs : s.now < clockLimit) :
    (s.now + count * s.config.frame < clockLimit ∧
      ∃ s', result = .ok s' ∧ s'.now = s.now + count * s.config.frame) ∨
    (clockLimit ≤ s.now + count * s.config.frame ∧ result = .error .clockOverflow) := by
  induction h with
  | @done number s => exact .inl ⟨by simpa using hs, s, rfl, by simp⟩
  | @late number count s r f _ hlate =>
      obtain ⟨hnow, -⟩ := Prod.mk.inj (clock_played sources args number s)
      rw [checkClock, hnow] at hlate
      split at hlate
      · cases hlate
      · -- the frames that are left would only add to the time
        rename_i hlimit
        refine .inr ⟨?_, hlate.symm⟩
        rw [Nat.succ_mul]
        omega
  | @next number count s s' r result _ hkept _ ih =>
      obtain ⟨hnow, hconfig⟩ := Prod.mk.inj (clock_played sources args number s)
      rw [checkClock, hnow] at hkept
      split at hkept
      · rename_i hlimit
        obtain rfl := Except.ok.inj hkept
        have hsum : s.now + s.config.frame + count * s.config.frame =
            s.now + (count + 1) * s.config.frame := by
          rw [Nat.succ_mul]
          omega
        rw [hnow, hconfig, hsum] at ih
        exact ih hlimit
      · cases hkept

end

/-! ## What the arguments can ask for -/

theorem lt_of_readWord {text : String} {n : Nat} (h : readWord text = .ok n) :
    n < UInt64.size := by
  unfold readWord at h
  split at h
  · rename_i m hread
    obtain rfl := Except.ok.inj h
    exact (Text.readUnsigned_eq_ok_iff.1 hread).2
  · cases h

/-- The numbers of frames and milliseconds that have been given have 64 bits. -/
structure Given.Words (g : Given) : Prop where
  frames : ∀ n ∈ g.frames, n < UInt64.size
  frameMs : ∀ n ∈ g.frameMs, n < UInt64.size

theorem of_reading {α : Type} {o : Opt} {value : String} {result : Except String α} {a : α}
    (h : Given.reading o value result = .ok a) : result = .ok a := by
  unfold Given.reading at h
  split at h
  · exact congrArg _ (Except.ok.inj h)
  · cases h

namespace Given.Words

variable {g g' : Given}

theorem nothing : Given.nothing.Words := ⟨nofun, nofun⟩

theorem accept (h : g.Words) {o : Opt} {value : String} (haccept : g.accept o value = .ok g') :
    g'.Words := by
  unfold Given.accept at haccept
  split at haccept
  · cases haccept
  · cases o with
    | frames =>
        obtain ⟨n, hn, hg⟩ := Json.Draft.of_bind_eq_ok haccept
        obtain rfl := Except.ok.inj hg
        exact ⟨fun m hm => Option.some.inj hm ▸ lt_of_readWord (of_reading hn), h.frameMs⟩
    | frameMs =>
        obtain ⟨n, hn, hg⟩ := Json.Draft.of_bind_eq_ok haccept
        obtain rfl := Except.ok.inj hg
        exact ⟨h.frames, fun m hm => Option.some.inj hm ▸ lt_of_readWord (of_reading hn)⟩
    | verbose | help | version => cases haccept
    | _ =>
        obtain ⟨_, -, hg⟩ := Json.Draft.of_bind_eq_ok haccept
        obtain rfl := Except.ok.inj hg
        exact ⟨h.frames, h.frameMs⟩

theorem raise (h : g.Words) {o : Opt} (hraise : g.raise o = .ok g') : g'.Words := by
  unfold Given.raise at hraise
  split at hraise
  · cases hraise
  · cases hraise
  · split at hraise
    · cases hraise
    · obtain rfl := Except.ok.inj hraise
      exact ⟨h.frames, h.frameMs⟩

theorem settle (h : g.Words) {pending : Option Pending}
    (hsettle : settle g pending = .ok g') : g'.Words := by
  unfold CommandLine.settle at hsettle
  split at hsettle
  · obtain rfl := Except.ok.inj hsettle
    exact h
  · cases hsettle
  · exact h.accept hsettle

theorem readOptions {args : List String} {pending : Option Pending} (h : g.Words)
    (hread : readOptions g pending args = .ok g') : g'.Words := by
  induction args generalizing g pending with
  | nil => exact h.settle hread
  | cons arg rest ih =>
      unfold CommandLine.readOptions at hread
      split at hread
      · -- two hyphens end the options
        split at hread
        · exact h.settle hread
        · cases hread
      · split at hread
        · cases hread
        · split at hread
          · obtain ⟨g₁, hsettled, hread⟩ := Json.Draft.of_bind_eq_ok hread
            obtain ⟨g₂, haccepted, hread⟩ := Json.Draft.of_bind_eq_ok hread
            exact ih ((h.settle hsettled).accept haccepted) hread
          · cases hread
        · obtain ⟨g₁, hsettled, hread⟩ := Json.Draft.of_bind_eq_ok hread
          split at hread
          · exact ih (h.settle hsettled) hread
          · obtain ⟨g₂, hraised, hread⟩ := Json.Draft.of_bind_eq_ok hread
            exact ih ((h.settle hsettled).raise hraised) hread
      · split at hread
        · obtain ⟨-, -, hread⟩ := Json.Draft.of_bind_eq_ok hread
          cases hread
        · obtain ⟨-, -, hread⟩ := Json.Draft.of_bind_eq_ok hread
          cases hread
        · cases hread
      · split at hread
        · exact ih h hread
        · cases hread

end Given.Words

/-- Arguments ask for numbers of 64 bits, or for few frames of a few milliseconds. -/
theorem words_of_parse {argv : List String} {args : Arguments}
    (h : Arguments.parse argv = .ok args) :
    args.frames < UInt64.size ∧ args.frameMs < UInt64.size := by
  obtain ⟨g, hread, hfinish⟩ := Json.Draft.of_bind_eq_ok h
  have hg : g.Words := Given.Words.nothing.readOptions hread
  have hdefault : ∀ (given : Option Nat) (n : Nat), (∀ m ∈ given, m < UInt64.size) →
      n < UInt64.size → given.getD n < UInt64.size := by
    intro given n hgiven hn
    cases given with
    | none => exact hn
    | some m => exact hgiven m rfl
  unfold Given.finish at hfinish
  split at hfinish
  · cases hfinish
  · obtain rfl := Except.ok.inj hfinish
    exact ⟨hdefault _ _ hg.frames (by decide), hdefault _ _ hg.frameMs (by decide)⟩

/-! ## When the clock overflows -/

section

variable {sources : Sources} {argv : List String} {args : Arguments} {lines : List Line}
  {s : Session} {result : Except Failure Session}

/-- A run whose frames return (`Plays`) breaks off exactly if its frames, added up as spans of time,
cannot be kept, and that is so exactly from 1000 times 2⁶⁴ milliseconds on. Frames of up to a second
never take so long, whatever their number; but the numbers that can be asked for have all 64 bits.
A run that is not broken off ends at the time that its frames take. -/
theorem clock_overflows_iff (hargs : Arguments.parse argv = .ok args)
    (hload : Session.load sources args.config args.scene = (lines, .ok s))
    (hplays : Plays sources args 0 args.frames s result) :
    play sources args 0 args.frames s = result ∧
      args.frames < UInt64.size ∧ args.frameMs < UInt64.size ∧
      (result = .error .clockOverflow ↔
        (Duration.ofMillis args.frameMs).times? args.frames = none) ∧
      (result = .error .clockOverflow ↔ UInt64.size * 1000 ≤ args.frames * args.frameMs) ∧
      (args.frameMs ≤ 1000 → ∃ s', result = .ok s') ∧
      ∀ s', result = .ok s' → s'.now = args.frames * args.frameMs * 1000000 := by
  obtain ⟨hframes, hframeMs⟩ := words_of_parse hargs
  obtain ⟨hnow, hconfig⟩ := Prod.mk.inj (Session.clock_load hload)
  have htime : s.now + args.frames * s.config.frame = args.frames * args.frameMs * 1000000 := by
    rw [hnow, hconfig, Arguments.config, Nat.zero_add, Nat.mul_assoc]
  have hlimit : clockLimit ≤ args.frames * args.frameMs * 1000000 ↔
      UInt64.size * 1000 ≤ args.frames * args.frameMs := by
    unfold clockLimit
    omega
  have htotal : args.frames * (Duration.ofMillis args.frameMs).total =
      args.frames * args.frameMs * 1000000 := by
    rw [Duration.total_ofMillis hframeMs, Nat.mul_assoc]
  have hends := hplays.cases_clock (by rw [hnow]; decide)
  rw [htime] at hends
  have hlate : result = .error .clockOverflow ↔
      clockLimit ≤ args.frames * args.frameMs * 1000000 := by
    rcases hends with ⟨hlt, s', rfl, -⟩ | ⟨hle, rfl⟩
    · exact ⟨nofun, fun hle => absurd hlt (Nat.not_lt.2 hle)⟩
    · exact ⟨fun _ => hle, fun _ => rfl⟩
  refine ⟨hplays.play_eq, hframes, hframeMs, ?_, hlate.trans hlimit, ?_, ?_⟩
  · rw [Duration.times?_eq_none_iff, htotal]
    exact hlate
  · intro hshort
    -- fewer than 2⁶⁴ frames of at most a second each
    have hlt : args.frames * args.frameMs < UInt64.size * 1000 :=
      calc args.frames * args.frameMs ≤ args.frames * 1000 := Nat.mul_le_mul_left _ hshort
        _ < UInt64.size * 1000 := Nat.mul_lt_mul_of_pos_right hframes (by decide)
    rcases hends with ⟨-, s', hs', -⟩ | ⟨hle, -⟩
    · exact ⟨s', hs'⟩
    · exact absurd (hlimit.1 hle) (Nat.not_le.2 hlt)
  · intro s' hs'
    rcases hends with ⟨-, s'', hs'', htold⟩ | ⟨-, herror⟩
    · obtain rfl := Except.ok.inj (hs'.symm.trans hs'')
      exact htold
    · cases hs'.symm.trans herror

end

/-! ## A long wait -/

/-- Nothing runs in a session, nobody plays it and nothing is pending. -/
structure AtRest (s : Session) : Prop where
  frames : s.tracker.frames = []
  scripts : s.scripts = none
  walk : s.pendingWalk = none
  input : s.world.input = .none
  script : s.world.pendingScript = none
  calls : s.calls = #[]

namespace AtRest

variable {sources : Sources} {args : Arguments} {s : Session}

theorem closeIdleBox (h : AtRest s) (status : TickStatus) :
    AtRest (Session.closeIdleBox status s) := by
  unfold Session.closeIdleBox
  split
  · have hsetting : s.world.closeBox.setting = s.world.setting := s.world.setting_flushDialog
    have hinput : s.world.closeBox.input = s.world.input := by
      show s.world.flushDialog.input = s.world.input
      unfold World.flushDialog
      split <;> rfl
    exact ⟨h.frames, h.scripts, h.walk, hinput.trans h.input,
      (congrArg Setting.pendingScript hsetting).trans h.script, h.calls⟩
  · exact h

theorem followScene_eq (h : AtRest s) : s.followScene sources = s := by
  unfold Session.followScene World.takePendingScript
  rw [h.script]

/-- A frame of a session at rest returns, and leaves it at rest. -/
theorem frame (sources : Sources) (h : AtRest s) :
    (∃ r, Session.FrameReturns sources s r) ∧ AtRest (s.frame sources) := by
  have hbegun : s.beginFrame sources = s := by
    have hpress : s.world.input.has .activate = false := by
      rw [h.input]
      rfl
    rw [Session.beginFrame, Session.takeWalk, h.walk]
    simp only [Session.pushButton, hpress, Bool.false_and, Bool.false_eq_true, if_false]
  have hreturns : Session.Returns sources s (.idle, ⟨[], s.tracker.voices⟩, s.world) := by
    unfold Session.Returns
    rw [hbegun]
    exact .ended (Tracker.turn_idle (by rw [h.frames]; rfl) s.tracker.voices s.world)
  have hafter : AtRest (Session.afterEvents sources s
      (.idle, ⟨[], s.tracker.voices⟩, s.world)) := by
    unfold Session.afterEvents
    rw [hbegun]
    exact closeIdleBox (s := { s with tracker := ⟨[], s.tracker.voices⟩ })
      ⟨rfl, h.scripts, h.walk, h.input, h.script, h.calls⟩ .idle
  have hbefore : AtRest (Session.beforeScripts sources s
      (.idle, ⟨[], s.tracker.voices⟩, s.world)) := by
    rw [Session.beforeScripts, hafter.followScene_eq]
    exact hafter
  refine ⟨⟨_, hreturns, ?_⟩, ?_⟩
  · intro scripts hscripts
    rw [hbefore.scripts] at hscripts
    cases hscripts
  · -- no scripts run, and nothing is to be called
    rw [Session.frame_eq hreturns]
    show AtRest (((Session.beforeScripts sources s (.idle, ⟨[], s.tracker.voices⟩,
      s.world)).runScripts sources).answerCalls sources).endFrame
    rw [Session.runScripts, hbefore.scripts]
    dsimp only
    rw [Session.answerCalls, hbefore.calls]
    exact ⟨hbefore.frames, hbefore.scripts, hbefore.walk, rfl, hbefore.script, rfl⟩

theorem input_eq (hpresses : args.presses = []) (hwalks : args.walks = []) (number : Nat) :
    args.input number s = s := by
  rw [Arguments.input, hpresses, hwalks]
  rfl

/-- A session at rest that nobody plays can be played for any number of frames. -/
theorem exists_plays (args : Arguments) (h : AtRest s) (hpresses : args.presses = [])
    (hwalks : args.walks = []) (number count : Nat) :
    ∃ result, Plays sources args number count s result := by
  induction count generalizing number s with
  | zero => exact ⟨_, .done⟩
  | succ count ih =>
      have hinput : args.input number s = s := input_eq hpresses hwalks number
      obtain ⟨⟨r, hreturns⟩, hframe⟩ := h.frame sources
      rw [← hinput] at hreturns hframe
      cases hclock : checkClock ((args.input number s).frame sources) with
      | error f => exact ⟨_, .late hreturns hclock⟩
      | ok s' =>
          obtain rfl : (args.input number s).frame sources = s' := by
            unfold checkClock at hclock
            split at hclock
            · exact Except.ok.inj hclock
            · cases hclock
          obtain ⟨result, hrest⟩ := ih hframe (number + 1)
          exact ⟨result, .next hreturns hclock hrest⟩

end AtRest

/-- A scene in which nothing happens. -/
def stillSources : Sources where
  scene _ := ([], .ok { Session.scenery [] with events := [] })
  script _ := .error .notFound

/-- The arguments that ask for 1001 frames of the longest time. -/
def longFrames : List String :=
  ["--scene", "scene.json", "--frames", "1001", "--frame-ms", "18446744073709551615"]

/-- The arguments that are meant. -/
def longWait : Arguments where
  scene := "scene.json"
  frames := 1001
  frameMs := 18446744073709551615
  watchdogMs := 5000
  presses := []
  walks := []
  eventLogJson := none
  verbose := false

theorem parse_longFrames : Arguments.parse longFrames = .ok longWait := by decide +kernel

theorem exists_load_longWait : ∃ lines s,
    Session.load stillSources longWait.config longWait.scene = (lines, .ok s) ∧ AtRest s :=
  ⟨_, _, rfl, rfl, rfl, rfl, rfl, rfl, rfl⟩

/-- In a scene in which nothing happens, 1001 frames of the longest time return, and the clock
overflows after the last. -/
theorem long_wait_overflows :
    ∃ args lines s, Arguments.parse longFrames = .ok args ∧
      Session.load stillSources args.config args.scene = (lines, .ok s) ∧
      Plays stillSources args 0 args.frames s (.error .clockOverflow) ∧
      summarize stillSources args = .error .clockOverflow := by
  obtain ⟨lines, s, hload, hs⟩ := exists_load_longWait
  obtain ⟨result, hplays⟩ := hs.exists_plays longWait rfl rfl 0 longWait.frames
  obtain ⟨hnow, hconfig⟩ := Prod.mk.inj (Session.clock_load hload)
  have hlate : clockLimit ≤ s.now + longWait.frames * s.config.frame := by
    rw [hnow, hconfig]
    decide
  rcases hplays.cases_clock (by rw [hnow]; decide) with ⟨hlt, -⟩ | ⟨-, rfl⟩
  · exact absurd hlate (Nat.not_le.2 hlt)
  · refine ⟨longWait, lines, s, parse_longFrames, hload, hplays, ?_⟩
    rw [summarize, hload]
    dsimp only
    rw [hplays.play_eq]
    rfl

/-- One frame fewer would be fine: the bound lies between 1000 frames of the longest time and 1001,
and added up as spans of time they overflow where the bound is. -/
theorem clock_overflows_iff_longWait :
    ∃ lines s result, Session.load stillSources longWait.config longWait.scene = (lines, .ok s) ∧
      Plays stillSources longWait 0 longWait.frames s result ∧ result = .error .clockOverflow ∧
      (Duration.ofMillis longWait.frameMs).times? 1001 = none ∧
      (Duration.ofMillis longWait.frameMs).times? 1000 ≠ none := by
  obtain ⟨lines, s, hload, hs⟩ := exists_load_longWait
  obtain ⟨result, hplays⟩ := hs.exists_plays longWait rfl rfl 0 longWait.frames
  obtain ⟨-, -, hframeMs, hadded, hbound, -, -⟩ := clock_overflows_iff parse_longFrames hload hplays
  have hlate : result = .error .clockOverflow := hbound.2 (by decide)
  refine ⟨lines, s, result, hload, hplays, hlate, hadded.1 hlate, ?_⟩
  rw [Ne, Duration.times?_eq_none_iff, Duration.total_ofMillis hframeMs]
  decide

end CommandLine

end Cutscene
