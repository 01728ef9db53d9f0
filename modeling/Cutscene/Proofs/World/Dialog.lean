import Cutscene.Proofs.World.Acts

/-!
# No text is lost

The text of the dialog box becomes a page of the transcript when another text takes its place and
when the box is closed, and nothing else takes text away. So the pages followed by the text that is
shown are all texts that were ever given, in the order in which they were given, and every page has
been logged (`dialog_conserved`). What an act gives, which pages it makes and what it logs is
`Tells`, and acts compose (`Tells.trans`).
-/

namespace Cutscene

/-- A flag is logged if it changes. -/
theorem Chronicle.log_setFlag (c : Chronicle) (name : String) :
    (c.setFlag name).2.log = c.log ∨ (c.setFlag name).2.log = c.log.push s!"flag.set {name}" := by
  unfold setFlag
  split
  · exact .inl rfl
  · exact .inr rfl

theorem Chronicle.log_unsetFlag (c : Chronicle) (name : String) :
    (c.unsetFlag name).2.log = c.log ∨
      (c.unsetFlag name).2.log = c.log.push s!"flag.unset {name}" := by
  unfold unsetFlag
  split
  · exact .inr rfl
  · exact .inl rfl

namespace World

/-- The text that an act gives the dialog box. -/
def Act.told : Act → String
  | .setText text => text
  | .appendText text => text
  | _ => ""

/-- Whether what an act logs comes from a script. -/
def Act.isScripted : Act → Bool
  | .scriptLogs _ => true
  | _ => false

/-- Whether an entry of the log is one of dialog. -/
def isDialogEntry (entry : String) : Bool := "dialog ".toList.isPrefixOf entry.toList

/-- What some acts log, each entry with the act that logs it. -/
def ledger (load : String → Reported Scene) : World → List Act → List (Act × String)
  | _, [] => []
  | w, a :: acts =>
    ((act load w a).chronicle.log.toList.drop w.chronicle.log.size).map (a, ·) ++
      ledger load (act load w a) acts

/-- The entries of dialog that do not come from scripts. -/
def dialogEntries (entries : List (Act × String)) : List String :=
  (entries.filter fun x => !x.1.isScripted && isDialogEntry x.2).map (·.2)

/-- What happens to the dialog: some text is given, some pages are made, and some entries are
logged. -/
structure Tells (told : String) (pages : List String) (entries : List (Act × String))
    (w w' : World) : Prop where
  transcript : w'.transcript.toList = w.transcript.toList ++ pages
  log : w'.chronicle.log.toList = w.chronicle.log.toList ++ entries.map (·.2)
  text : String.join pages ++ w'.narrative.text = w.narrative.text ++ told
  nonempty : ∀ page ∈ pages, page ≠ ""
  announced : dialogEntries entries = pages.map ("dialog " ++ ·)

namespace Tells

variable {told told' : String} {pages pages' : List String} {entries entries' : List (Act × String)}
  {w w' w'' : World}

theorem trans (h : Tells told pages entries w w') (h' : Tells told' pages' entries' w' w'') :
    Tells (told ++ told') (pages ++ pages') (entries ++ entries') w w'' where
  transcript := by rw [h'.transcript, h.transcript, List.append_assoc]
  log := by rw [h'.log, h.log, List.map_append, List.append_assoc]
  text := by
    calc String.join (pages ++ pages') ++ w''.narrative.text
        = String.join pages ++ (String.join pages' ++ w''.narrative.text) := by
          rw [String.join_append, String.append_assoc]
      _ = w.narrative.text ++ (told ++ told') := by
          rw [h'.text, ← String.append_assoc, h.text, String.append_assoc]
  nonempty page hpage := (List.mem_append.1 hpage).elim (h.nonempty page) (h'.nonempty page)
  announced := by
    rw [dialogEntries, List.filter_append, List.map_append, List.map_append]
    exact congr (congrArg _ h.announced) h'.announced

/-- Nothing happens but that text is given. -/
theorem given (htranscript : w'.transcript = w.transcript)
    (hlog : w'.chronicle.log = w.chronicle.log)
    (htext : w'.narrative.text = w.narrative.text ++ told) : Tells told [] [] w w' where
  transcript := by rw [htranscript, List.append_nil]
  log := by simp [hlog]
  text := by rw [String.join_nil, String.empty_append, htext]
  nonempty := by simp
  announced := rfl

end Tells

/-! ## What one act tells -/

/-- What one act does to the dialog, which gives a text. -/
def ToldBy (a : Act) (told : String) (w w' : World) : Prop :=
  ∃ (pages entries : List String), Tells told pages (entries.map (a, ·)) w w'

theorem isDialogEntry_of_head? {entry : String} (h : entry.toList.head? ≠ some 'd') :
    isDialogEntry entry = false := by
  rw [isDialogEntry, show "dialog ".toList = ['d', 'i', 'a', 'l', 'o', 'g', ' '] from rfl]
  cases hlist : entry.toList with
  | nil => rfl
  | cons c cs =>
      have hne : ('d' == c) = false :=
        beq_eq_false_iff_ne.2 fun heq => h (by rw [hlist, ← heq]; rfl)
      rw [List.isPrefixOf_cons_cons, hne, Bool.false_and]

@[simp] theorem text_flushDialog (w : World) : w.flushDialog.narrative.text = "" := by
  unfold flushDialog
  split
  · assumption
  · rfl

namespace ToldBy

variable {a : Act} {told told' : String} {w w' w'' : World}

theorem trans (h : ToldBy a told w w') (h' : ToldBy a told' w' w'') :
    ToldBy a (told ++ told') w w'' := by
  obtain ⟨pages, entries, htells⟩ := h
  obtain ⟨pages', entries', htells'⟩ := h'
  refine ⟨pages ++ pages', entries ++ entries', ?_⟩
  rw [List.map_append]
  exact htells.trans htells'

/-- No text is given, and what is logged, if anything is, comes from a script or does not begin like
the dialog. -/
theorem quiet (entry : String) (htranscript : w'.transcript = w.transcript)
    (htext : w'.narrative.text = w.narrative.text)
    (hlog : w'.chronicle.log = w.chronicle.log ∨ w'.chronicle.log = w.chronicle.log.push entry)
    (hentry : a.isScripted = true ∨ entry.toList.head? ≠ some 'd') : ToldBy a "" w w' := by
  rcases hlog with hlog | hlog
  · exact ⟨[], [], .given htranscript hlog (by rw [htext, String.append_empty])⟩
  · refine ⟨[], [entry], ?_, ?_, ?_, ?_, ?_⟩
    · rw [htranscript, List.append_nil]
    · simp [hlog]
    · rw [htext, String.join_nil, String.empty_append, String.append_empty]
    · simp
    · rcases hentry with hentry | hentry
      · simp [dialogEntries, hentry]
      · simp [dialogEntries, isDialogEntry_of_head? hentry]

theorem of_eq (htranscript : w'.transcript = w.transcript)
    (htext : w'.narrative.text = w.narrative.text) (hlog : w'.chronicle.log = w.chronicle.log) :
    ToldBy a "" w w' :=
  quiet "" htranscript htext (.inl hlog) (.inr (by decide))

theorem of_record (entry : String) (htranscript : w'.transcript = w.transcript)
    (htext : w'.narrative.text = w.narrative.text)
    (hlog : w'.chronicle.log = w.chronicle.log.push entry)
    (hentry : entry.toList.head? ≠ some 'd') : ToldBy a "" w w' :=
  quiet entry htranscript htext (.inr hlog) (.inr hentry)

/-- The text that is shown becomes a page, if there is any. -/
theorem flushDialog (ha : a.isScripted = false) (w : World) : ToldBy a "" w w.flushDialog := by
  unfold World.flushDialog
  split
  · exact of_eq rfl rfl rfl
  · rename_i htext
    have hentry : isDialogEntry ("dialog " ++ w.narrative.text) = true := by simp [isDialogEntry]
    refine ⟨[w.narrative.text], ["dialog " ++ w.narrative.text], ?_, ?_, ?_, ?_, ?_⟩
    · simp [record]
    · simp [record]
      rfl
    · simp [record]
    · simpa using htext
    · simp [dialogEntries, ha, hentry]

theorem setFlag (name : String) (w : World) : ToldBy a "" w (w.setFlag name).2 :=
  quiet _ rfl rfl (w.chronicle.log_setFlag name) (.inr (by simp [toString]))

theorem unsetFlag (name : String) (w : World) : ToldBy a "" w (w.unsetFlag name).2 :=
  quiet _ rfl rfl (w.chronicle.log_unsetFlag name) (.inr (by simp [toString]))

theorem showOptions (first second : String) (highlighted : Nat) (w : World) :
    ToldBy a "" w (w.showOptions first second highlighted) := by
  unfold World.showOptions
  split
  · exact of_record s!"options {first} | {second}" rfl rfl rfl (by simp [toString])
  · exact of_eq rfl rfl rfl

theorem hideOptions (w : World) : ToldBy a "" w w.hideOptions := by
  unfold World.hideOptions
  split
  · exact of_eq rfl rfl rfl
  · exact of_record _ rfl rfl rfl (by simp [toString])

theorem entityCue (name : String) (cue : Cue) (w : World) :
    ToldBy a "" w (w.entityCue name cue) := by
  unfold World.entityCue
  split
  · exact of_eq rfl rfl rfl
  · dsimp only
    split
    · exact of_record _ rfl rfl rfl (by simp [toString])
    · exact of_eq rfl rfl rfl

theorem fireTrigger (kind : TriggerKind) (p : Point) (w : World) :
    ToldBy a "" w (w.fireTrigger kind p).2 := by
  obtain ⟨journal, ⟨-, heq⟩ | ⟨f, -, heq⟩⟩ := fireTrigger_cases kind p w
  · rw [heq]
    exact of_eq rfl rfl rfl
  · rw [heq]
    unfold spend
    split
    · rename_i flag hflag
      exact quiet _ rfl rfl ((w.withJournal journal).chronicle.log_setFlag flag)
        (.inr (by simp [toString]))
    · exact of_eq rfl rfl rfl

theorem loadScene (load : String → Reported Scene) (path : String) (door : Option String)
    (w : World) : ToldBy a "" w (w.loadScene load path door).2 := by
  rcases hload : load (Text.Path.join w.directory path) with ⟨lines, error | scene⟩
  · obtain ⟨journal, heq⟩ := exists_loadScene_of_error hload door
    rw [heq]
    exact of_eq rfl rfl rfl
  · obtain ⟨journal, heq⟩ := exists_loadScene_of_ok hload door
    obtain ⟨journal', player, hentered⟩ :=
      exists_enter_eq scene door (w.leaving scene door journal)
    rw [heq, hentered]
    exact of_record _ rfl rfl rfl (by simp [toString])

end ToldBy

/-- What an act tells: the text that it gives and the pages that it makes. -/
theorem toldBy_act (load : String → Reported Scene) (w : World) (a : Act) :
    ToldBy a a.told w (act load w a) := by
  cases a with
  | setFlag name => exact .setFlag name w
  | unsetFlag name => exact .unsetFlag name w
  | openBox => exact .of_record _ rfl rfl rfl (by decide)
  | closeBox =>
      have hclosed : ToldBy .closeBox "" w.flushDialog w.closeBox :=
        .of_record _ rfl (text_flushDialog w).symm rfl (by decide)
      exact (ToldBy.flushDialog rfl w).trans hclosed
  | setText text =>
      have hgiven : ToldBy (.setText text) text w.flushDialog (w.setText text) :=
        ⟨[], [], .given rfl rfl (by rw [text_flushDialog, String.empty_append]; rfl)⟩
      have htold := (ToldBy.flushDialog rfl w).trans hgiven
      rwa [String.empty_append] at htold
  | appendText text => exact ⟨[], [], .given rfl rfl rfl⟩
  | showOptions first second highlighted => exact .showOptions first second highlighted w
  | hideOptions => exact .hideOptions w
  | playMusic path looped => exact .of_record _ rfl rfl rfl (by simp [toString])
  | stopMusic => exact .of_record _ rfl rfl rfl (by decide)
  | pauseMusic => exact .of_record _ rfl rfl rfl (by decide)
  | resumeMusic => exact .of_record _ rfl rfl rfl (by decide)
  | entityCue name cue => exact .entityCue name cue w
  | loadScene path door => exact .loadScene load path door w
  | fireTrigger kind p => exact .fireTrigger kind p w
  | flushDialog => exact .flushDialog rfl w
  | scriptLogs entry => exact .quiet _ rfl rfl (.inr rfl) (.inl rfl)
  | _ => exact .of_eq rfl rfl rfl

/-! ## What many acts tell -/

/-- What some acts tell, with all that they log. -/
theorem exists_tells_actAll (load : String → Reported Scene) (w : World) (acts : List Act) :
    ∃ pages, Tells (String.join (acts.map Act.told)) pages (ledger load w acts) w
      (actAll load w acts) := by
  induction acts generalizing w with
  | nil => exact ⟨[], .given rfl rfl (by simp [actAll])⟩
  | cons a acts ih =>
      obtain ⟨pages, entries, htells⟩ := toldBy_act load w a
      obtain ⟨pages', htells'⟩ := ih (act load w a)
      have hentries : (act load w a).chronicle.log.toList.drop w.chronicle.log.size = entries := by
        rw [htells.log, List.map_map, ← Array.length_toList, List.drop_left]
        exact List.map_id _
      refine ⟨pages ++ pages', ?_⟩
      rw [List.map_cons, String.join_cons, ledger, hentries, actAll_cons]
      exact htells.trans htells'

/-- No text of the dialog is lost, doubled or moved, whatever is done with a world from the
beginning of a scene. The pages of the transcript, followed by the text that is shown, are all texts
that were ever given, in the order in which they were given. No page is empty. And of what has been
logged but by scripts, the entries of dialog are the pages, in order. -/
theorem dialog_conserved (load : String → Reported Scene) (scene : Scene) (acts : List Act) :
    let w := actAll load (ofScene scene) acts
    let entries := ledger load (ofScene scene) acts
    String.join w.transcript.toList ++ w.narrative.text = String.join (acts.map Act.told) ∧
      (∀ page ∈ w.transcript.toList, page ≠ "") ∧
      w.chronicle.log.toList = entries.map (·.2) ∧
      dialogEntries entries = w.transcript.toList.map ("dialog " ++ ·) := by
  intro w entries
  obtain ⟨pages, htells⟩ := exists_tells_actAll load (ofScene scene) acts
  have hpages : w.transcript.toList = pages := htells.transcript
  have htext : String.join pages ++ w.narrative.text = "" ++ String.join (acts.map Act.told) :=
    htells.text
  rw [String.empty_append] at htext
  rw [hpages]
  exact ⟨htext, htells.nonempty, htells.log, htells.announced⟩

/-- A page ends when another text takes its place or when the box is closed. -/
example (load : String → Reported Scene) (scene : Scene) :
    let w := actAll load (ofScene scene)
      [.openBox, .setText "", .appendText "Who", .appendText "?", .setText "Me.", .closeBox]
    w.transcript = #["Who?", "Me."] ∧ w.narrative.text = "" :=
  ⟨rfl, rfl⟩

end World

end Cutscene
