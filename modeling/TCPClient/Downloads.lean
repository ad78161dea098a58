import TCPClient.FolderSpec

namespace TCPClient

open Octets Cover Folder

/-!
# The folder of received files

`downloads_accounted` says where every file of the folder comes from, in every state any events
lead to.  `kept_only_if_written_iff` says what a kept file is worth: everything handed to
`fwrite` is in it, unless the `fclose` of the complete file failed, which nothing looks at.
-/

/-- The file of the open task, with what was written into it. -/
def World.openFile (w : World) : Option (Bytes × Bytes) :=
  w.recvTaskActive.bind fun i =>
    (w.openPath i).map fun path => (path, writeAll (w.fileWrites path))

/-- The files of the transfers that passed the completion check in a run, oldest first. -/
def keptFiles (w : World) : List FileEvent → List (Bytes × Bytes)
  | [] => []
  | e :: events => (e.keeps w).toList ++ keptFiles (fileStep w e) events

/-- What an event adds to the log. -/
def FileEvent.effects (w : World) (e : FileEvent) : List Effect :=
  (fileStep w e).log.drop w.log.length

namespace World

variable {w w' : World} {i : Slot} {path : Bytes} {k : Option (Bytes × Bytes)} {removed : Prop}

theorem openFile_eq_none (h : ∀ i, w.openPath i = none) : w.openFile = none := by
  unfold openFile
  cases w.recvTaskActive with
  | none => rfl
  | some i => rw [Option.bind_some, h i, Option.map_none]

theorem openFile_eq_some (hcoh : CoherentTable w.recv) (h : w.openPath i = some path) :
    w.openFile = some (path, writeAll (w.fileWrites path)) := by
  obtain ⟨fh, hfp, -⟩ := openPath_eq_some.mp h
  unfold openFile
  cases hactive : w.recvTaskActive with
  | none =>
    have hidle := recvTaskActive_eq_none.mp hactive i (hcoh.activeBusy i fh hfp)
    exact absurd (hidle.symm.trans hfp) (by simp)
  | some j =>
    have hji := hcoh.oneActive j i (recvTaskActive_eq_some hactive).2 (by simp [hfp])
    rw [Option.bind_some, hji, h, Option.map_some]

/-- The file of the open task holds what was written into it. -/
theorem disk_of_openPath (hfiles : FilesOk w) (h : w.openPath i = some path) :
    w.disk path = some (writeAll (w.fileWrites path)) := by
  obtain ⟨fh, hfp, rfl⟩ := openPath_eq_some.mp h
  exact (hfiles i fh hfp).content

theorem openFile_congr (hcoh : CoherentTable w.recv) (hcoh' : CoherentTable w'.recv)
    (hfiles : FilesOk w) (hfiles' : FilesOk w') (hdisk : w'.disk = w.disk)
    (hopen : ∀ i, w'.openPath i = w.openPath i) : w'.openFile = w.openFile := by
  by_cases hany : ∃ i path, w.openPath i = some path
  · obtain ⟨i, path, hi⟩ := hany
    have hi' : w'.openPath i = some path := by rw [hopen, hi]
    have hcontent := disk_of_openPath hfiles' hi'
    rw [hdisk, disk_of_openPath hfiles hi, Option.some.injEq] at hcontent
    rw [openFile_eq_some hcoh hi, openFile_eq_some hcoh' hi', hcontent]
  · have hnone : ∀ i, w.openPath i = none := fun i =>
      Option.eq_none_iff_forall_ne_some.mpr fun path h => hany ⟨i, path, h⟩
    rw [openFile_eq_none hnone, openFile_eq_none fun i => by rw [hopen, hnone]]

/-- **Refinement.** What an event does to the folder is a step of the folder. -/
theorem FolderStep.move (h : FolderStep removed w w' k) (hremoved : removed)
    (hcoh : CoherentTable w.recv) (hcoh' : CoherentTable w'.recv) (hfiles : FilesOk w)
    (hfiles' : FilesOk w') :
    Move w.disk w.openFile w'.disk w'.openFile k.toList := by
  have hupdate : ∀ {path : Bytes}, (∀ p, p ≠ path → w'.disk p = w.disk p) →
      w'.disk = Function.update w.disk path (w'.disk path) := by
    intro path hdisk
    ext1 p
    rw [Function.update_apply]
    split_ifs with hp
    · rw [hp]
    · exact hdisk p hp
  cases h with
  | still hs =>
    rw [openFile_congr hcoh hcoh' hfiles hfiles' hs.disk hs.opened, hs.disk]
    exact .idle _
  | refused path hadds hfree hdisk hgone hopen =>
    have hsame : w'.disk = w.disk := by
      rw [hupdate hdisk, hgone hremoved, ← hfree, Function.update_eq_self]
    rw [openFile_congr hcoh hcoh' hfiles hfiles' hsame hopen, hsame]
    exact .idle _
  | created i path hadds hfree hnone hdisk hopen =>
    rw [openFile_eq_none hnone, openFile_eq_some hcoh' hopen, hupdate hdisk,
      disk_of_openPath hfiles' hopen]
    exact .create path _ hfree
  | written i path hadds hold hdisk hopen =>
    rw [openFile_eq_some hcoh hold, openFile_eq_some hcoh' hopen, hupdate hdisk,
      disk_of_openPath hfiles' hopen]
    exact .write path _ _
  | discarded i path hadds hold hdisk hgone hopen =>
    rw [openFile_eq_some hcoh hold, openFile_eq_none hopen, hupdate hdisk, hgone hremoved]
    exact .discard path _
  | kept i path content hadds hold hdisk hopen =>
    rw [openFile_eq_some hcoh hold, openFile_eq_none hopen, hdisk]
    exact .keep path _ content

/-- What is added to the log is what an event adds. -/
theorem Adds.mem {P : Effect → Prop} {e : FileEvent} (h : Adds P w (fileStep w e)) {x : Effect}
    (hx : x ∈ e.effects w) : P x := by
  obtain ⟨new, hlog, hnew⟩ := h
  rw [FileEvent.effects, hlog, List.drop_left] at hx
  exact hnew x hx

/-- An event changes no name but that of the open file or of a file that is not there. -/
theorem FolderStep.changes {e : FileEvent} (h : FolderStep removed w (fileStep w e) k) {x : Effect}
    (hx : x ∈ e.effects w) {path : Bytes} (hpath : x.changes = some path) :
    w.disk path = none ∨ ∃ i, w.openPath i = some path := by
  have hsame : ∀ {p : Bytes}, Adds (Effect.Near (some p)) w (fileStep w e) → p = path :=
    fun ha => Option.some.inj ((ha.mem hx).1 path hpath)
  cases h with
  | still hs => exact absurd ((hs.adds.mem hx).1 path hpath) (by simp)
  | refused p hadds hfree hdisk hgone hopen =>
    obtain rfl := hsame hadds
    exact Or.inl hfree
  | created i p hadds hfree hnone hdisk hopen =>
    obtain rfl := hsame hadds
    exact Or.inl hfree
  | written i p hadds hold hdisk hopen =>
    obtain rfl := hsame hadds
    exact Or.inr ⟨i, hold⟩
  | discarded i p hadds hold hdisk hgone hopen =>
    obtain rfl := hsame hadds
    exact Or.inr ⟨i, hold⟩
  | kept i p content hadds hold hdisk hopen =>
    have hnone : x.changes = none := hadds.mem hx
    exact absurd (hnone.symm.trans hpath) (by simp)

end World

/-- **Run lemma** for the folder. -/
theorem accounts_run {start : Bytes → Option Bytes} {w : World} (hw : Reachable w)
    {kept : List (Bytes × Bytes)} (h : Accounts start kept w.openFile w.disk)
    (events : List FileEvent) (hremove : ∀ e ∈ events, e.RemovesWork) :
    Accounts start (kept ++ keptFiles w events) (fileRun w events).openFile
      (fileRun w events).disk := by
  induction events generalizing w kept with
  | nil =>
    rw [keptFiles, List.append_nil]
    exact h
  | cons e events ih =>
    have hw' := Reachable.step e hw
    have hstep := fileStep_folder hw.coherent.toCoherentTable hw.filesOk e
    have hmove := hstep.move (hremove e List.mem_cons_self) hw.coherent.toCoherentTable
      hw'.coherent.toCoherentTable hw.filesOk hw'.filesOk
    rw [keptFiles, ← List.append_assoc]
    exact ih hw' (h.move hmove) fun e' he' => hremove e' (List.mem_cons_of_mem e he')

/-- **Downloads.** After any events, whatever fails in them, every file is one that was there at
    the start, with its content, or that of a transfer that passed the completion check, or the
    file of the open task; and no next event creates, writes or removes anything under the name
    of a file of the first two kinds. -/
theorem downloads_accounted (disk : Bytes → Option Bytes) (events : List FileEvent)
    (hremove : ∀ e ∈ events, e.RemovesWork) :
    Accounts disk (keptFiles (World.init disk) events) (fileRun (World.init disk) events).openFile
        (fileRun (World.init disk) events).disk ∧
      ∀ e : FileEvent, ∀ x ∈ e.effects (fileRun (World.init disk) events),
        ∀ path, x.changes = some path →
          disk path = none ∧ path ∉ (keptFiles (World.init disk) events).map Prod.fst := by
  have hstart : Accounts disk [] (World.init disk).openFile (World.init disk).disk := by
    rw [World.openFile_eq_none fun i => by simp [World.openPath, World.init, RecvTask.zero]]
    exact .nil disk
  have haccounts := accounts_run (.init disk) hstart events hremove
  rw [List.nil_append] at haccounts
  refine ⟨haccounts, fun e x hx path hpath => ?_⟩
  have hw : Reachable (fileRun (World.init disk) events) := (Reachable.init disk).run events
  have hcoh := hw.coherent.toCoherentTable
  rcases (fileStep_folder hcoh hw.filesOk e).changes hx hpath with hfree | ⟨i, hopen⟩
  · exact haccounts.fresh hfree
  · exact haccounts.draftNew _ (World.openFile_eq_some hcoh hopen)

/-- Transfer 7, a file of one byte, from its announcement to its completion. -/
def oneByteTransfer : List FileEvent :=
  [.announcement ((Announcement.incoming (utf8 "bob") (utf8 "a") 1).text 7) Io.ok,
    .frame msgFileInit (utf8 "bob" ++ 0 :: utf8 "a" ++ 0 :: utf8 "1" ++ [0]) Io.ok,
    .accept (utf8 "/accept 7") Io.ok,
    .frame msgFileChunk (utilsWriteU32Be 7 ++ utilsWriteU64Be 0 ++ [65]) Io.ok,
    .frame msgFileComplete (utilsWriteU32Be 7) Io.ok]

/-- After the transfer the folder has its file, and nothing else. -/
theorem downloads_accounted_one_byte :
    Accounts (fun _ => none) [(utf8 "downloads/a", [65])] none
      (fileRun (World.init fun _ => none) oneByteTransfer).disk := by
  have hkept : keptFiles (World.init fun _ => none) oneByteTransfer =
      [(utf8 "downloads/a", [65])] := by decide +kernel
  have hopen : (fileRun (World.init fun _ => none) oneByteTransfer).openFile = none := by
    decide +kernel
  have haccounts := (downloads_accounted (fun _ => none) oneByteTransfer
    (by simp [oneByteTransfer, FileEvent.RemovesWork, Io.ok])).1
  rwa [hkept, hopen] at haccounts

/-! ### What a kept file is worth -/

/-- What the outside answers to an event's operations on the file of a slot. -/
def FileEvent.io (i : Slot) : FileEvent → Option Io
  | .accept _ io | .reject _ io | .cancel _ io | .announcement _ io | .frame _ _ io
  | .error _ io => some io
  | .reset io => some (io i)
  | _ => none

/-- A chunk for the open file of a slot passes the span check, and its `fseek` or its `fwrite`
    fails. -/
def FileEvent.WriteFails (w : World) (i : Slot) : FileEvent → Prop
  | .frame type payload io =>
    type = msgFileChunk ∧ payload.length ≠ 4 ∧ 12 ≤ payload.length ∧
      w.recvTaskFind (utilsReadU32Be payload) = some i ∧ (w.recv i).fp.isSome = true ∧
      fileRecvSpanCheck (w.recv i).size ((w.recv i).bitmap.getD []) (w.recv i).bitmapLen
        (utilsReadU64Be (payload.drop 4)) (payload.drop 12).length = true ∧
      (io.fseekOk = false ∨ 2 ^ 63 ≤ utilsReadU64Be (payload.drop 4) ∨
        (io.fwritten (payload.drop 12)).length ≠ (payload.drop 12).length)
  | _ => False

/-- The event closes the file of a slot, and the `fclose` fails. -/
def FileEvent.CloseFails (w : World) (i : Slot) (e : FileEvent) : Prop :=
  (w.recv i).fp.isSome = true ∧ ((fileStep w e).recv i).fp = none ∧
    ∃ io, e.io i = some io ∧ io.fcloseLoss ≠ none

/-- Some `fseek`, `fwrite` or `fclose` on the file of a slot fails in a run. -/
def FileFails (w : World) (i : Slot) : List FileEvent → Prop
  | [] => False
  | e :: events => e.WriteFails w i ∨ e.CloseFails w i ∨ FileFails (fileStep w e) i events

/-- The file of a slot stays open throughout a run. -/
def StaysOpen (w : World) (i : Slot) : List FileEvent → Prop
  | [] => True
  | e :: events => ((fileStep w e).recv i).fp.isSome = true ∧ StaysOpen (fileStep w e) i events

/-- The log reports the transfer as saved. -/
def Reported (log : List Effect) (tid : Nat) : Prop := ∃ x ∈ log, x.Reports tid

/-- A file, open in `w`, is there after a run and reported as saved only if every operation on
    it succeeded; if one failed, it is removed and not reported. -/
structure KeptOnlyIfWritten (w : World) (i : Slot) (path : Bytes) (events : List FileEvent) :
    Prop where
  kept : ((fileRun w events).disk path).isSome = true → ¬ FileFails w i events
  reported : Reported ((fileRun w events).log.drop w.log.length) (w.recv i).tid →
    ¬ FileFails w i events
  failed : FileFails w i events → (fileRun w events).disk path = none ∧
    ¬ Reported ((fileRun w events).log.drop w.log.length) (w.recv i).tid

/-- A completion signal finds the task of a slot with all of its bytes counted, and the `fclose`
    of the complete file fails. -/
def FileEvent.LosesFile (w : World) (i : Slot) (e : FileEvent) : Prop :=
  ∃ tid io, e.completes w = some (tid, io) ∧ w.recvTaskFind tid = some i ∧
    (w.recv i).received = (w.recv i).size ∧ io.fcloseLoss ≠ none

/-- A chunk that cannot be written ends its task. -/
theorem FileEvent.WriteFails.closed {w : World} {i : Slot} {e : FileEvent}
    (h : e.WriteFails w i) : ((fileStep w e).recv i).fp = none := by
  cases e with
  | frame type payload io =>
    obtain ⟨rfl, h4, h12, hfind, hfp, hspan, hfails⟩ := h
    obtain ⟨fh, hfp⟩ := Option.isSome_iff_exists.mp hfp
    have habort : ∀ w' : World, w'.tasks = { w.tasks with
        recv := Function.update w.recv i RecvTask.zero } → (w'.recv i).fp = none := by
      intro w' ht
      simp [ht, RecvTask.zero]
    rw [fileStep, World.fileFrame_chunk w io h12, World.recvChunk, hfind]
    dsimp only
    rw [hfp]
    dsimp only
    rw [if_neg (not_not_intro hspan)]
    by_cases hseek : ¬ io.fseekOk = true ∨ 2 ^ 63 ≤ utilsReadU64Be (payload.drop 4)
    · rw [if_pos hseek]
      exact habort _ (World.tasks_recvTaskAbort w io i _)
    · have hshort : (io.fwritten (payload.drop 12)).length ≠ (payload.drop 12).length := by
        rcases hfails with hf | hf | hf
        · exact absurd (Or.inl (by simp [hf])) hseek
        · exact absurd (Or.inr hf) hseek
        · exact hf
      rw [if_neg hseek, if_pos hshort]
      exact habort _ (World.tasks_recvTaskAbort _ io i _)
  | _ => exact h.elim

/-- The event that keeps the file is the completion signal of its task. -/
theorem FileEvent.keeps_isSome {w : World} {i : Slot} {path : Bytes} {e : FileEvent}
    (hcoh : CoherentTable w.recv) (hold : w.openPath i = some path)
    (h : (e.keeps w).isSome = true) :
    ∃ tid io, e.completes w = some (tid, io) ∧ w.recvTaskFind tid = some i ∧
      (w.recv i).received = (w.recv i).size := by
  unfold FileEvent.keeps at h
  cases hcompletes : e.completes w with
  | none => rw [hcompletes] at h; exact absurd h (by simp)
  | some c =>
    obtain ⟨tid, io⟩ := c
    rw [hcompletes, Option.bind_some, World.keptBy] at h
    cases hfind : w.recvTaskFind tid with
    | none => rw [hfind] at h; exact absurd h (by simp)
    | some j =>
      rw [hfind, Option.bind_some] at h
      split_ifs at h with hfull
      · -- only one slot has a file to keep
        cases hj : w.openPath j with
        | none => rw [hj] at h; exact absurd h (by simp)
        | some p =>
          obtain ⟨rfl, -⟩ := World.openPath_unique hcoh hold hj
          exact ⟨tid, io, rfl, hfind, hfull⟩
      · exact absurd h (by simp)

theorem FileEvent.LosesFile.keeps {w : World} {i : Slot} {path : Bytes} {e : FileEvent}
    (hfiles : FilesOk w) (hold : w.openPath i = some path) (h : e.LosesFile w i) :
    (e.keeps w).isSome = true := by
  obtain ⟨tid, io, hcompletes, hfind, hfull, -⟩ := h
  rw [FileEvent.keeps, hcompletes, Option.bind_some, World.keptBy, hfind, Option.bind_some,
    if_pos hfull, hold, Option.bind_some, World.disk_of_openPath hfiles hold, Option.map_some,
    Option.isSome_some]

/-- A completion signal writes nothing, and its answers are those of the close. -/
theorem FileEvent.io_of_completes {w : World} {e : FileEvent} {tid : Nat} {io : Io}
    (h : e.completes w = some (tid, io)) (i : Slot) : e.io i = some io ∧ ¬ e.WriteFails w i := by
  cases e with
  | announcement text io' =>
    refine ⟨?_, fun hf => hf⟩
    simp only [FileEvent.completes] at h
    split at h
    · split_ifs at h
      rw [← (Prod.mk.inj (Option.some.inj h)).2]
      rfl
    · exact absurd h (by simp)
  | frame type payload io' =>
    simp only [FileEvent.completes] at h
    split_ifs at h with hc
    refine ⟨?_, fun hf => hf.2.1 hc.1⟩
    rw [← (Prod.mk.inj (Option.some.inj h)).2]
    rfl
  | _ => exact absurd h (by simp [FileEvent.completes])

/-- When the file is kept, a failure of the last event loses it. -/
theorem FileEvent.losesFile_iff {w : World} {i : Slot} {path : Bytes} {e : FileEvent}
    (hcoh : CoherentTable w.recv) (hold : w.openPath i = some path)
    (hclosed : ((fileStep w e).recv i).fp = none) (hkept : (e.keeps w).isSome = true) :
    e.LosesFile w i ↔ e.WriteFails w i ∨ e.CloseFails w i := by
  obtain ⟨tid, io, hcompletes, hfind, hfull⟩ := FileEvent.keeps_isSome hcoh hold hkept
  obtain ⟨hio, hwrite⟩ := FileEvent.io_of_completes hcompletes i
  constructor
  · rintro ⟨tid', io', hcompletes', -, -, hloss⟩
    obtain ⟨-, rfl⟩ := Prod.mk.inj (Option.some.inj (hcompletes.symm.trans hcompletes'))
    obtain ⟨fh, hfp, -⟩ := World.openPath_eq_some.mp hold
    exact Or.inr ⟨Option.isSome_of_mem hfp, hclosed, io, hio, hloss⟩
  · rintro (hf | ⟨-, -, io', hio', hloss⟩)
    · exact absurd hf hwrite
    · obtain rfl := Option.some.inj (hio.symm.trans hio')
      exact ⟨tid, io, hcompletes, hfind, hfull, hloss⟩

/-- **Step lemma** for an event that leaves the file of a slot open. -/
theorem open_step {w : World} (hw : Reachable w) {i : Slot} {path : Bytes}
    (hold : w.openPath i = some path) {e : FileEvent}
    (hopen : ((fileStep w e).recv i).fp.isSome = true) :
    (fileStep w e).openPath i = some path ∧ ((fileStep w e).recv i).tid = (w.recv i).tid ∧
      World.Adds (fun x => ¬ x.Reports (w.recv i).tid) w (fileStep w e) := by
  have hcoh := hw.coherent.toCoherentTable
  have hcoh' := (Reachable.step e hw).coherent.toCoherentTable
  obtain ⟨fh', hfp'⟩ := Option.isSome_iff_exists.mp hopen
  have hnot : (fileStep w e).openPath i ≠ none := by
    rw [Ne, World.openPath_eq_none, hfp']
    simp
  have hquiet : ∀ {p : Option Bytes}, World.Adds (Effect.Near p) w (fileStep w e) →
      World.Adds (fun x => ¬ x.Reports (w.recv i).tid) w (fileStep w e) :=
    fun ha => ha.mono fun x hx => hx.2 _
  have htid : ((fileStep w e).recv i).tid = (w.recv i).tid := by
    obtain ⟨fh, hfp, -⟩ := World.openPath_eq_some.mp hold
    cases (fileStep_spec w e).files hcoh with
    | carried hc => rw [(hc i fh' hfp').1]
    | opened j saveName p hrecv hfree _ _ => exact absurd hfp (by simp [hfree i])
    | written j fh'' offset data hfp'' hspan hrecv _ _ =>
      obtain rfl := hcoh.oneActive j i (by simp [hfp'']) (by simp [hfp])
      rw [hrecv, Function.update_self]
      rfl
  have hstep := fileStep_folder hcoh hw.filesOk e
  generalize e.keeps w = k at hstep
  cases hstep with
  | still hs => exact ⟨by rw [hs.opened, hold], htid, hquiet hs.adds⟩
  | refused p hadds hfree hdisk hgone ho => exact ⟨by rw [ho, hold], htid, hquiet hadds⟩
  | created j p hadds hfree hnone hdisk ho => exact absurd hold (by simp [hnone i])
  | written j p hadds hj hdisk ho =>
    obtain ⟨rfl, rfl⟩ := World.openPath_unique hcoh hold hj
    exact ⟨ho, htid, hquiet hadds⟩
  | discarded j p hadds hj hdisk hgone ho => exact absurd (ho i) hnot
  | kept j p content hadds hj hdisk ho => exact absurd (ho i) hnot

/-- **Run lemma** for events that leave the file of a slot open: none of them failed. -/
theorem open_run {w : World} (hw : Reachable w) {i : Slot} {path : Bytes}
    (hold : w.openPath i = some path) {events : List FileEvent}
    (hopen : StaysOpen w i events) :
    (fileRun w events).openPath i = some path ∧
      ((fileRun w events).recv i).tid = (w.recv i).tid ∧
      World.Adds (fun x => ¬ x.Reports (w.recv i).tid) w (fileRun w events) ∧
      ∀ e, FileFails w i (events ++ [e]) ↔
        e.WriteFails (fileRun w events) i ∨ e.CloseFails (fileRun w events) i := by
  induction events generalizing w with
  | nil => exact ⟨hold, rfl, .refl _ w, fun e => by simp [FileFails, fileRun]⟩
  | cons e events ih =>
    obtain ⟨hfirst, hrest⟩ := hopen
    obtain ⟨hpath, htid, hadds⟩ := open_step hw hold hfirst
    obtain ⟨hpath', htid', hadds', hfails⟩ := ih (.step e hw) hpath hrest
    rw [htid] at htid' hadds'
    refine ⟨hpath', htid', hadds.trans hadds', fun e' => ?_⟩
    have hwrite : ¬ e.WriteFails w i := fun hf => by
      rw [hf.closed] at hfirst
      exact absurd hfirst (by simp)
    have hclose : ¬ e.CloseFails w i := fun hf => by
      rw [hf.2.1] at hfirst
      exact absurd hfirst (by simp)
    rw [List.cons_append, FileFails, hfails e']
    simp [hwrite, hclose, fileRun]

/-- **Step lemma** for an event that closes the file of a slot: it is removed without a report,
    or kept. -/
theorem close_step {w : World} (hw : Reachable w) {i : Slot} {path : Bytes}
    (hold : w.openPath i = some path) {e : FileEvent} (hremove : e.RemovesWork)
    (hclosed : ((fileStep w e).recv i).fp = none) :
    (e.keeps w = none ∧ (fileStep w e).disk path = none ∧
      World.Adds (fun x => ∀ tid, ¬ x.Reports tid) w (fileStep w e)) ∨
    ∃ content, e.keeps w = some (path, content) ∧ (fileStep w e).disk path = some content := by
  have hcoh := hw.coherent.toCoherentTable
  have hended : (fileStep w e).openPath i = none := World.openPath_eq_none.mpr hclosed
  have hstep := fileStep_folder hcoh hw.filesOk e
  generalize e.keeps w = k at hstep ⊢
  cases hstep with
  | still hs => rw [hs.opened, hold] at hended; exact absurd hended (by simp)
  | refused p hadds hfree hdisk hgone ho =>
    rw [ho, hold] at hended
    exact absurd hended (by simp)
  | created j p hadds hfree hnone hdisk ho => exact absurd hold (by simp [hnone i])
  | written j p hadds hj hdisk ho =>
    obtain ⟨rfl, rfl⟩ := World.openPath_unique hcoh hold hj
    rw [ho] at hended
    exact absurd hended (by simp)
  | discarded j p hadds hj hdisk hgone ho =>
    obtain ⟨-, rfl⟩ := World.openPath_unique hcoh hold hj
    exact Or.inl ⟨rfl, hgone hremove, hadds.mono fun x hx => hx.2⟩
  | kept j p content hadds hj hdisk ho =>
    obtain ⟨-, rfl⟩ := World.openPath_unique hcoh hold hj
    exact Or.inr ⟨content, rfl, by rw [hdisk, Function.update_self]⟩

/-- A file an event creates stays open, or is gone again when the event ends. -/
theorem created_open_or_removed {w : World} (hw : Reachable w) {e : FileEvent} {path : Bytes}
    (hremove : e.RemovesWork) (hcreates : Effect.fopen path ∈ e.effects w) :
    (∃ i, (fileStep w e).openPath i = some path) ∨
      ((fileStep w e).disk path = none ∧ ∀ tid, ¬ Reported (e.effects w) tid) := by
  have hstep := fileStep_folder hw.coherent.toCoherentTable hw.filesOk e
  have hsame : ∀ {p : Bytes}, World.Adds (Effect.Near (some p)) w (fileStep w e) → p = path :=
    fun ha => Option.some.inj ((ha.mem hcreates).1 path rfl)
  have hquiet : ∀ {p : Bytes}, World.Adds (Effect.Near (some p)) w (fileStep w e) →
      ∀ tid, ¬ Reported (e.effects w) tid := fun ha tid ⟨x, hx, hr⟩ => (ha.mem hx).2 tid hr
  generalize e.keeps w = k at hstep
  cases hstep with
  | still hs => exact absurd ((hs.adds.mem hcreates).1 path rfl) (by simp)
  | refused p hadds hfree hdisk hgone ho =>
    obtain rfl := hsame hadds
    exact Or.inr ⟨hgone hremove, hquiet hadds⟩
  | created i p hadds hfree hnone hdisk ho =>
    obtain rfl := hsame hadds
    exact Or.inl ⟨i, ho⟩
  | written i p hadds hold hdisk ho =>
    obtain rfl := hsame hadds
    exact Or.inl ⟨i, ho⟩
  | discarded i p hadds hold hdisk hgone ho =>
    obtain rfl := hsame hadds
    exact Or.inr ⟨hgone hremove, hquiet hadds⟩
  | kept i p content hadds hold hdisk ho =>
    have hnone : (Effect.fopen path).changes = none := hadds.mem hcreates
    exact absurd hnone (by simp [Effect.changes])

/-- **Kept files.** A file that an event creates and does not leave open is removed again.  A
    file that is open in any reachable state, through any events that leave it open, and then
    closed: it is kept and reported only if every operation on it succeeded, exactly when it is
    not a complete file whose `fclose` fails. -/
theorem kept_only_if_written_iff {w : World} (hw : Reachable w) :
    (∀ (e : FileEvent) (path : Bytes), e.RemovesWork → Effect.fopen path ∈ e.effects w →
      (∃ i, (fileStep w e).openPath i = some path) ∨
        ((fileStep w e).disk path = none ∧ ∀ tid, ¬ Reported (e.effects w) tid)) ∧
    ∀ (i : Slot) (path : Bytes) (events : List FileEvent) (e : FileEvent),
      w.openPath i = some path → (∀ x ∈ events ++ [e], x.RemovesWork) → StaysOpen w i events →
      ((fileStep (fileRun w events) e).recv i).fp = none →
        (KeptOnlyIfWritten w i path (events ++ [e]) ↔ ¬ e.LosesFile (fileRun w events) i) := by
  refine ⟨fun e path => created_open_or_removed hw, ?_⟩
  intro i path events e hold hremove hopen hclosed
  obtain ⟨hpath, htid, hadds, hfails⟩ := open_run hw hold hopen
  have hw1 : Reachable (fileRun w events) := hw.run events
  have hrun : fileRun w (events ++ [e]) = fileStep (fileRun w events) e := by
    simp [fileRun]
  rcases close_step hw1 hpath (hremove e (by simp)) hclosed with
    ⟨hk, hgone, hquiet⟩ | ⟨content, hk, hdisk⟩
  · -- the file is removed, and nothing is reported
    have hsilent : ¬ Reported ((fileRun w (events ++ [e])).log.drop w.log.length)
        (w.recv i).tid := by
      obtain ⟨new, hlog, hnew⟩ := hadds.trans (hquiet.mono fun x hx => hx (w.recv i).tid)
      rw [hrun, hlog, List.drop_left]
      rintro ⟨x, hx, hr⟩
      exact hnew x hx hr
    refine ⟨fun _ hloses => ?_, fun _ => ⟨fun hkept => ?_, fun hr => absurd hr hsilent,
      fun _ => ⟨by rw [hrun, hgone], hsilent⟩⟩⟩
    · have hkeeps := hloses.keeps hw1.filesOk hpath
      rw [hk] at hkeeps
      exact absurd hkeeps (by simp)
    · rw [hrun, hgone] at hkept
      exact absurd hkept (by simp)
  · -- the file stays, so all depends on its last operation
    have hkept : ((fileRun w (events ++ [e])).disk path).isSome = true := by
      rw [hrun, hdisk]
      rfl
    rw [FileEvent.losesFile_iff hw1.coherent.toCoherentTable hpath hclosed (by rw [hk]; rfl),
      ← hfails e]
    exact ⟨fun h => h.kept hkept,
      fun hok => ⟨fun _ => hok, fun _ => hok, fun hf => absurd hf hok⟩⟩

/-- A COMPLETE frame whose `fclose` fails and leaves nothing of the file. -/
def completeLost : FileEvent :=
  .frame msgFileComplete (utilsWriteU32Be 7) { Io.ok with fcloseLoss := some [] }

/-- The file of transfer 7, closed by a COMPLETE frame while everything succeeds. -/
theorem kept_only_if_written_iff_seven :
    KeptOnlyIfWritten oneByteReceived 0 (utf8 "downloads/a")
        [.frame msgFileComplete (utilsWriteU32Be 7) Io.ok] ↔
      ¬ (FileEvent.frame msgFileComplete (utilsWriteU32Be 7) Io.ok).LosesFile
        oneByteReceived 0 :=
  (kept_only_if_written_iff (Reachable.run (Reachable.init _) _)).2 0 (utf8 "downloads/a") []
    (.frame msgFileComplete (utilsWriteU32Be 7) Io.ok)
    (show oneByteReceived.openPath 0 = _ by decide +kernel) (by simp [FileEvent.RemovesWork, Io.ok])
    trivial (show ((fileStep oneByteReceived _).recv 0).fp = none by decide +kernel)

/-- The file is kept, empty, although its `fclose` failed. -/
theorem failed_close_kept :
    Reachable oneByteReceived ∧ oneByteReceived.openPath 0 = some (utf8 "downloads/a") ∧
      completeLost.RemovesWork ∧
      ((fileStep oneByteReceived completeLost).disk (utf8 "downloads/a")) = some [] ∧
      ¬ KeptOnlyIfWritten oneByteReceived 0 (utf8 "downloads/a") [completeLost] := by
  have hkept : (fileStep oneByteReceived completeLost).disk (utf8 "downloads/a") = some [] := by
    decide +kernel
  refine ⟨Reachable.run (Reachable.init _) _, by decide +kernel, rfl, hkept, fun h => ?_⟩
  refine h.kept (by rw [show fileRun oneByteReceived [completeLost] =
    fileStep oneByteReceived completeLost from rfl, hkept]; rfl) (Or.inr (Or.inl ⟨?_, ?_, ?_⟩))
  · decide +kernel
  · decide +kernel
  · exact ⟨_, rfl, by simp⟩

end TCPClient
