import TCPClient.Confinement
import TCPClient.Lib.Bag

namespace TCPClient

open Octets Memory Bag

/-!
# The transfers that frames leave open

While nothing is sent and no file is open, the file module is a table of offers: an incoming
announcement makes one, a completion or a cancellation ends one, and no other frame makes a
difference.  `openOffers` computes what frames leave open from the frames alone;
`handleFrames_offers` says that the table of receive tasks agrees with it.
-/

/-- What a frame tells about an offer. -/
inductive OfferNews where
  | offered (tid : Nat)
  | ended (tid : Nat)
  deriving DecidableEq, Repr

/-- What an announcement says about the offers. -/
def textNews (text : Bytes) : Option OfferNews :=
  match fileParseAnnouncement text with
  | some (.recvPending, tid) => some (.offered tid)
  | some (.complete, tid) | some (.cancelled, tid) | some (.cancelledDisc, tid) =>
    some (.ended tid)
  | _ => none

/-- What a frame says about them. -/
def frameNews (frame : UInt8 × Bytes) : Option OfferNews :=
  if frame.1 = msgServerMsg then textNews (frame.2.takeWhile (· ≠ 0))
  else if (frame.1 = msgFileComplete ∨ frame.1 = msgFileCancel) ∧ frame.2.length = 4 then
    some (.ended (utilsReadU32Be frame.2))
  else none

/-- The ids of the open offers behind the news; there is room for eight. -/
def OfferNews.apply (offers : List Nat) : OfferNews → List Nat
  | .offered tid => if offers.length < fileMaxRecvPending then tid :: offers else offers
  | .ended tid => offers.erase tid

/-- The open offers behind a frame. -/
def offersBehind (offers : List Nat) (frame : UInt8 × Bytes) : List Nat :=
  match frameNews frame with
  | none => offers
  | some news => news.apply offers

/-- The offers that are open behind some frames. -/
def openOffers (frames : List (UInt8 × Bytes)) : List Nat := frames.foldl offersBehind []

/-- The id of a task in use. -/
def RecvTask.openTid (t : RecvTask) : Option Nat := if t.busy then some t.tid else none

/-- The module holds these offers and nothing else: no file is sent, none is being received. -/
structure World.Offers (w : World) (offers : List Nat) : Prop where
  send : w.send.busy = false
  closed : ∀ i, (w.recv i).busy = true → (w.recv i).fp = none
  table : (entries (List.finRange fileMaxRecvPending) (RecvTask.openTid ∘ w.recv)).Perm offers

namespace World
namespace Offers

variable {w w' : World} {offers : List Nat}

/-- At the start nothing is offered. -/
theorem init (disk : Bytes → Option Bytes) : (World.init disk).Offers [] where
  send := rfl
  closed := fun i h => absurd h (by simp [World.init, RecvTask.zero])
  table := by
    rw [entries_eq_nil.mpr]
    intro i _
    rfl

/-- Only the tasks count. -/
theorem congr (h : w.Offers offers) (htasks : w'.tasks = w.tasks) : w'.Offers offers := by
  obtain ⟨hsend, hclosed, htable⟩ := h
  constructor
  · rw [World.send, htasks]
    exact hsend
  · rw [World.recv, htasks]
    exact hclosed
  · rw [World.recv, htasks]
    exact htable

/-- No id is the one of the send task. -/
theorem not_matches (h : w.Offers offers) (tid : Nat) : w.sendTaskMatches tid = false := by
  rw [sendTaskMatches, h.send]
  rfl

/-- The table has no slot in use beyond the offers. -/
theorem idle_iff (h : w.Offers offers) : offers = [] ↔ ∀ i, (w.recv i).busy = false := by
  constructor
  · rintro rfl i
    have hnil := h.table.eq_nil
    rw [entries_eq_nil] at hnil
    have hi := hnil i (List.mem_finRange i)
    rw [Function.comp_apply, RecvTask.openTid] at hi
    simpa using hi
  · intro hidle
    have hnil : entries (List.finRange fileMaxRecvPending) (RecvTask.openTid ∘ w.recv) = [] := by
      rw [entries_eq_nil]
      intro i _
      rw [Function.comp_apply, RecvTask.openTid, hidle i]
      rfl
    have htable := h.table
    rw [hnil] at htable
    exact htable.symm.eq_nil

/-- An id that the search does not find is not offered. -/
theorem not_mem_of_find_none (h : w.Offers offers) {tid : Nat} (hnone : w.recvTaskFind tid = none) :
    tid ∉ offers := by
  intro hmem
  obtain ⟨i, -, hi⟩ := mem_entries.mp (h.table.mem_iff.mpr hmem)
  rw [recvTaskFind, List.find?_eq_none] at hnone
  have hbusy := hnone i (List.mem_finRange i)
  rw [Function.comp_apply, RecvTask.openTid] at hi
  split_ifs at hi with hb
  exact hbusy (by simp [hb, Option.some.inj hi])

/-- One more task without a file. -/
theorem closed_update (h : w.Offers offers) {i : Slot} {t : RecvTask}
    (ht : t.busy = true → t.fp = none) (j : Slot)
    (hj : (Function.update w.recv i t j).busy = true) :
    (Function.update w.recv i t j).fp = none := by
  by_cases hij : j = i
  · subst hij
    rw [Function.update_self] at hj ⊢
    exact ht hj
  · rw [Function.update_of_ne hij] at hj ⊢
    exact h.closed j hj

/-- Clearing the task of an id ends its offer. -/
theorem clear (h : w.Offers offers) (io : Io) {tid : Nat} {i : Slot}
    (hfind : w.recvTaskFind tid = some i) : (w.recvTaskClear io i).Offers (offers.erase tid) where
  send := by
    rw [World.send, tasks_recvTaskClear]
    exact h.send
  closed := by
    rw [World.recv, tasks_recvTaskClear]
    exact h.closed_update fun _ => rfl
  table := by
    obtain ⟨hbusy, htid⟩ := recvTaskFind_eq_some hfind
    have hopen : (RecvTask.openTid ∘ w.recv) i = some tid := by
      rw [Function.comp_apply, RecvTask.openTid, if_pos hbusy, htid]
    have hfree := entries_free (List.nodup_finRange _) (List.mem_finRange i) hopen
    rw [World.recv, tasks_recvTaskClear, Function.comp_update]
    have herase := (hfree.symm.trans h.table).erase tid
    rwa [List.erase_cons_head] at herase

/-- Ending an offer, whichever way. -/
theorem ended (h : w.Offers offers) (io : Io) (tid : Nat) :
    (match w.recvTaskFind tid with
      | none => w
      | some i => w.recvTaskClear io i).Offers (offers.erase tid) := by
  cases hfind : w.recvTaskFind tid with
  | none =>
    rw [List.erase_of_not_mem (h.not_mem_of_find_none hfind)]
    exact h
  | some i => exact h.clear io hfind

/-- A cancellation takes its offer back. -/
theorem cancelled (h : w.Offers offers) (io : Io) (tid : Nat) :
    (w.cancelled io tid).Offers (offers.erase tid) := by
  rw [World.cancelled, h.not_matches, if_neg (by simp)]
  exact h.ended io tid

/-- So does a completion. -/
theorem complete (h : w.Offers offers) (io : Io) (tid : Nat) :
    (w.recvTaskComplete io tid).Offers (offers.erase tid) := by
  have hended := h.ended io tid
  rw [recvTaskComplete]
  cases hfind : w.recvTaskFind tid with
  | none =>
    rw [hfind] at hended
    exact hended
  | some i =>
    rw [hfind] at hended
    -- the task has no open file
    have hfp := h.closed i (recvTaskFind_eq_some hfind).1
    dsimp only
    rw [hfp, if_neg (by simp)]
    exact hended

/-- The peer's answers are about the send task. -/
theorem accepted (h : w.Offers offers) (tid : Nat) : (w.accepted tid).Offers offers := by
  rw [World.accepted, h.not_matches, if_neg (by simp)]
  exact h

theorem rejected (h : w.Offers offers) (tid : Nat) : (w.rejected tid).Offers offers := by
  rw [World.rejected, h.not_matches, if_neg (by simp)]
  exact h

/-- An incoming announcement takes a free slot, if there is one. -/
theorem announceIncoming (h : w.Offers offers) (io : Io) (tid : Nat) :
    (w.recvAnnounceIncoming io tid).Offers ((OfferNews.offered tid).apply offers) := by
  have hlen := h.table.length_eq
  rw [recvAnnounceIncoming, OfferNews.apply]
  cases hslot : w.recvTaskSlot with
  | none =>
    -- no free slot: there are eight offers, and the announcement is dropped
    have hfull : ∀ i ∈ List.finRange fileMaxRecvPending,
        (RecvTask.openTid ∘ w.recv) i ≠ none := by
      rw [recvTaskSlot, List.find?_eq_none] at hslot
      intro i hi
      have hbusy := hslot i hi
      rw [Function.comp_apply, RecvTask.openTid, if_pos (by simpa using hbusy)]
      simp
    rw [length_entries_eq hfull, List.length_finRange] at hlen
    rw [if_neg (by omega)]
    exact h.congr (by simp)
  | some i =>
    have hfree : (RecvTask.openTid ∘ w.recv) i = none := by
      rw [Function.comp_apply, RecvTask.openTid, recvTaskSlot_eq_some hslot]
      rfl
    have hroom := length_entries_lt (List.mem_finRange i) hfree
    rw [hlen, List.length_finRange] at hroom
    rw [if_pos hroom]
    constructor
    · exact h.send
    · exact h.closed_update fun _ => rfl
    · show (entries _ (RecvTask.openTid ∘ Function.update w.recv i _)).Perm _
      rw [Function.comp_update]
      exact (entries_put (List.nodup_finRange _) (List.mem_finRange i) hfree tid).trans
        (h.table.cons tid)

/-- An INIT frame fills in a task that stays open. -/
theorem fillInit (h : w.Offers offers) (f : InitFields) : (w.recvFillInit f).Offers offers := by
  rw [recvFillInit]
  cases w.recvInitBest with
  | none => exact h
  | some i =>
    constructor
    · exact h.send
    · exact h.closed_update (h.closed i)
    · show (entries _ (RecvTask.openTid ∘ Function.update w.recv i _)).Perm _
      rw [Function.comp_update]
      -- the same id in the same slot
      have hsame : Function.update (RecvTask.openTid ∘ w.recv) i (RecvTask.openTid
          { w.recv i with
            inited := true, sender := f.sender, filename := f.filename, size := f.size }) =
          RecvTask.openTid ∘ w.recv := Function.update_eq_self i _
      rw [hsame]
      exact h.table

/-- A chunk finds no active task. -/
theorem chunk (h : w.Offers offers) (io : Io) (tid offset : Nat) (data : Bytes) :
    (w.recvChunk io tid offset data).Offers offers := by
  rw [recvChunk_eq_self io offset data fun i hi => h.closed i (recvTaskFind_eq_some hi).1]
  exact h

/-- Errors do not take offers back. -/
theorem error (h : w.Offers offers) (io : Io) (code : Nat) :
    (w.fileHandleError io code).Offers offers := by
  -- an error only ends what is being sent or received
  have hactive : w.recvTaskActive = none := recvTaskActive_eq_none.mpr h.closed
  have hbusy : ¬ w.send.busy = true := by simp [h.send]
  rw [fileHandleError]
  by_cases huser : code = errNoSuchUser
  · rw [if_pos huser, if_neg fun hc => hbusy hc.1]
    exact h
  by_cases hstate : code = errTransferState
  · rw [if_neg huser, if_pos hstate, if_neg hbusy]
    dsimp only
    rw [hactive]
    exact h
  · rw [if_neg huser, if_neg hstate]
    exact h

/-! ### Frames -/

/-- An announcement changes the offers as its text says. -/
theorem announcement (h : w.Offers offers) (io : Io) (text : Bytes) :
    (w.fileHandleAnnouncement io text).Offers
      (match textNews text with
        | none => offers
        | some news => news.apply offers) := by
  rw [fileHandleAnnouncement, textNews]
  cases fileParseAnnouncement text with
  | none => exact h
  | some ann =>
    obtain ⟨kind, tid⟩ := ann
    cases kind with
    | sendPending =>
      -- it would need a send task in PENDING_TID
      dsimp only
      rw [announced, if_neg (by simp [h.send])]
      exact h
    | recvPending => exact h.announceIncoming io tid
    | accepted => exact h.accepted tid
    | rejected => exact h.rejected tid
    | complete =>
      dsimp only
      rw [announced, h.not_matches, if_neg (by simp)]
      exact h.complete io tid
    | cancelled => exact h.cancelled io tid
    | cancelledDisc => exact h.cancelled io tid

/-- The frames of the file family: of the control frames two end an offer. -/
theorem fileFrame (h : w.Offers offers) (io : Io) {type : UInt8} (hserver : type ≠ msgServerMsg)
    (payload : Bytes) :
    (w.fileFrame io type payload).Offers (offersBehind offers (type, payload)) := by
  rw [offersBehind, frameNews, if_neg hserver]
  by_cases h4 : payload.length = 4
  · rw [fileFrame_control w io type h4, controlFrame]
    by_cases haccept : type = msgFileAccept
    · subst haccept
      exact h.accepted _
    by_cases hreject : type = msgFileReject
    · subst hreject
      exact h.rejected _
    rw [if_neg haccept, if_neg hreject]
    by_cases hcancel : type = msgFileCancel
    · rw [if_pos hcancel, if_pos ⟨Or.inr hcancel, h4⟩]
      exact h.cancelled io _
    by_cases hcomplete : type = msgFileComplete
    · rw [if_neg hcancel, if_pos hcomplete, if_pos ⟨Or.inl hcomplete, h4⟩]
      exact h.complete io _
    · rw [if_neg hcancel, if_neg hcomplete, if_neg fun hc => hc.1.elim hcomplete hcancel]
      exact h
  · rw [if_neg fun hc => h4 hc.2]
    by_cases hinit : type = msgFileInit
    · subst hinit
      rw [fileFrame_init w io h4]
      cases initFields payload with
      | none => exact h
      | some f => exact h.fillInit f
    by_cases hchunk : type = msgFileChunk ∧ 12 ≤ payload.length
    · obtain ⟨rfl, h12⟩ := hchunk
      rw [fileFrame_chunk w io h12]
      exact h.chunk io _ _ _
    · rw [fileFrame_other w io h4 hinit fun hc => by
        by_contra hlong
        exact hchunk ⟨hc, by omega⟩]
      exact h

/-- **Step lemma.** A frame that stays inside its payload has the effect on the offers that is
    read off the frame. -/
theorem appHandleFrame (h : w.Offers offers) (io : Io) {frame : UInt8 × Bytes}
    (hconf : AppConfined frame.1 frame.2) :
    ∃ w', w.appHandleFrame io frame.1 (span frame.2 []) frame.2.length = some w' ∧
      w'.Offers (offersBehind offers frame) := by
  obtain ⟨type, pl⟩ := frame
  obtain ⟨w', hw'⟩ := (confined_appHandleFrame w io type pl).mpr hconf
  have hrun := hw' []
  refine ⟨w', hrun, ?_⟩
  dsimp only at hrun
  rw [World.appHandleFrame] at hrun
  by_cases hserver : type = msgServerMsg
  · -- an announcement, if anything
    subst hserver
    have hnul : 0 ∈ pl := hconf.1 (Or.inl rfl)
    rw [if_pos rfl, cstr_span_nil, List.drop_zero, if_pos hnul, Option.map_some,
      Option.some.injEq] at hrun
    rw [← hrun, offersBehind, frameNews, if_pos rfl]
    have hdisplayed (text : Bytes) : (w.displayIncoming text).Offers offers := h.congr rfl
    exact (hdisplayed _).announcement io _
  -- of the other types only two control frames tell something
  have hnews (hcontrol : ¬ ((type = msgFileComplete ∨ type = msgFileCancel) ∧ pl.length = 4)) :
      offersBehind offers (type, pl) = offers := by
    rw [offersBehind, frameNews, if_neg hserver, if_neg hcontrol]
  rw [if_neg hserver] at hrun
  by_cases htext : type = msgChat ∨ type = msgPriv ∨ type = msgGmsg
  · rw [if_pos htext] at hrun
    obtain ⟨text, -, rfl⟩ := Option.map_eq_some_iff.mp hrun
    rw [hnews (by rcases htext with rfl | rfl | rfl <;> simp)]
    exact h.congr rfl
  rw [if_neg htext] at hrun
  by_cases herror : type = msgError
  · subst herror
    rw [hnews (by simp)]
    rw [if_pos rfl] at hrun
    split_ifs at hrun
    · obtain ⟨code, -, hmsg⟩ := Option.bind_eq_some_iff.mp hrun
      obtain ⟨message, -, rfl⟩ := Option.map_eq_some_iff.mp hmsg
      have hprinted (code : Nat) : (w.uiPrintError code message).Offers offers := h.congr rfl
      exact (hprinted _).error io _
    · rw [← Option.some.inj hrun]
      exact h
  rw [if_neg herror] at hrun
  by_cases husers : type = msgOnlineUsers
  · subst husers
    rw [hnews (by simp)]
    rw [if_pos rfl, uiDisplayOnlineUsers] at hrun
    obtain ⟨head, -, hlist⟩ := Option.bind_eq_some_iff.mp hrun
    obtain ⟨users, -, rfl⟩ := Option.map_eq_some_iff.mp hlist
    exact h.congr rfl
  rw [if_neg husers] at hrun
  split_ifs at hrun with hfile
  · rw [fileHandleFrame_span, Option.some.injEq] at hrun
    rw [← hrun]
    exact h.fileFrame io hserver pl
  · rw [hnews fun hc => hfile (by rcases hc.1 with rfl | rfl <;> simp), ← Option.some.inj hrun]
    exact h.congr rfl

end Offers

/-- **Run lemma.** Frames leave open what is read off them. -/
theorem handleFrames_offers {w : World} {offers : List Nat} (h : w.Offers offers)
    {frames : List (UInt8 × Bytes)} (hconf : ∀ frame ∈ frames, AppConfined frame.1 frame.2)
    (ios : Nat → Io) :
    ∃ w' ios', handleAll appHandler (some w, ios) frames = (some w', ios') ∧
      w'.Offers (frames.foldl offersBehind offers) := by
  induction frames generalizing w offers ios with
  | nil => exact ⟨w, ios, rfl, h⟩
  | cons frame frames ih =>
    obtain ⟨w1, hw1, h1⟩ := h.appHandleFrame (ios 0) (hconf frame (by simp))
    obtain ⟨w', ios', hrun, h'⟩ := ih h1 (fun f hf => hconf f (List.mem_cons_of_mem _ hf))
      fun n => ios (n + 1)
    refine ⟨w', ios', ?_, h'⟩
    rw [← hrun, handleAll, List.foldl_cons, appHandler, Option.bind_some, hw1]
    rfl

end World
end TCPClient
