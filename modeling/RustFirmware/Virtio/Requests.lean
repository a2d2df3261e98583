/-
  RustFirmware.Virtio.Requests
  ────────────────────────────
  **A SUCCESSFUL READ WAS PERFORMED, AS LONG AS NO EARLIER REQUEST IS OUTSTANDING.**

  All requests share one descriptor chain, one header and one status byte, and every
  used element has the id 0: a completion is matched to a call by the two indices
  alone.  While every call starts with `avail_idx = used_idx` the system is in one
  of three conditions, and `Inv` says which:

    • `Quiet`    — nothing is published that is not consumed; the device is idle,
    • `InFlight` — exactly the entry of this call is on its way,
    • `Stalled`  — the last call timed out; no further call starts.

  After a timeout the indices stay apart for good, and §4 shows the late completion
  of one call accepted by the next.
-/
import RustFirmware.Virtio.Queue
import Mathlib.Data.List.Basic

namespace RustFirmware.Virtio

open RustFirmware.Lib

/-! ## §1. What holds between the steps. -/

/-- The request of the current call was performed and its buffer holds the sectors. -/
def Delivered (disk : Nat → UInt8) (s : State) : Prop :=
  s.driver.ticket ∈ s.history.performed
    ∧ ∀ i < s.driver.call.length,
        s.memory (s.driver.call.address + i) = disk (virtioSectorSize * s.driver.call.sector + i)

/-- Nothing is outstanding. -/
structure Quiet (s : State) : Prop where
  even    : s.driver.availIdx = s.driver.usedIdx
  avail   : s.queue.availIdx = s.driver.availIdx
  used    : s.queue.usedIdx = s.driver.usedIdx
  last    : s.device.lastAvail = s.queue.availIdx
  pending : s.device.pending = []
  fetched : s.history.fetched = s.history.published

/-- A call has timed out. -/
structure Stalled (s : State) : Prop where
  ahead   : s.driver.availIdx ≠ s.driver.usedIdx
  outside : s.driver.phase = .idle ∨ ∃ e, s.driver.phase = .returned (.error e)

/-- The header and the descriptor of the buffer are those of the call. -/
structure Chained (s : State) : Prop where
  sector : s.header.sector = s.driver.call.sector
  next   : (s.queue.descriptors 0).next = 1
  buffer : (s.queue.descriptors 1).addr = .buffer s.driver.call.address
  length : (s.queue.descriptors 1).len = s.driver.call.length

/-- What the driver has prepared in a quiet state. -/
def Prepared (disk : Nat → UInt8) (s : State) : Prop :=
  match s.driver.phase with
  | .idle                => True
  | .writeHeader         => True
  | .writeStatus         => s.header.sector = s.driver.call.sector
  | .writeDescriptor0    => s.header.sector = s.driver.call.sector
  | .writeDescriptor1    =>
      s.header.sector = s.driver.call.sector ∧ (s.queue.descriptors 0).next = 1
  | .writeDescriptor2    => Chained s
  | .setAvailRing        => Chained s
  | .setAvailIdx         =>
      Chained s ∧ s.queue.availRing (s.driver.availIdx.toNat % virtioBlockQueueSize) = 0
  | .poll _              => False
  | .readUsed            => False
  | .readStatus          => s.status = virtioBlkStatusOk → Delivered disk s
  | .returned (.ok _)    => Delivered disk s
  | .returned (.error _) => True

/-- Published, not yet fetched. -/
structure Waiting (s : State) : Prop where
  last    : s.device.lastAvail = s.driver.usedIdx
  pending : s.device.pending = []
  used    : s.queue.usedIdx = s.driver.usedIdx
  fetched : s.history.fetched = s.driver.ticket
  chained : Chained s
  slot    : s.queue.availRing (s.driver.usedIdx.toNat % virtioBlockQueueSize) = 0

/-- Where the device is with the request of the call. -/
def StageOk (disk : Nat → UInt8) (s : State) : RequestStage → Prop
  | .fetched          => True
  | .performed status => status = virtioBlkStatusOk → Delivered disk s
  | .reported status  => s.status = status ∧ (status = virtioBlkStatusOk → Delivered disk s)

/-- The request of the current call, as the device has fetched it. -/
def callRequest (s : State) (stage : RequestStage) : Fetched where
  ticket  := s.driver.ticket
  head    := 0
  sector  := s.driver.call.sector
  address := s.driver.call.address
  length  := s.driver.call.length
  stage   := stage

/-- Fetched, and the only request the device has. -/
structure Taken (disk : Nat → UInt8) (s : State) (stage : RequestStage) : Prop where
  last    : s.device.lastAvail = s.queue.availIdx
  used    : s.queue.usedIdx = s.driver.usedIdx
  pending : s.device.pending = [callRequest s stage]
  fetched : s.history.fetched = s.history.published
  stage   : StageOk disk s stage

/-- Completed: the used element is there. -/
structure Done (disk : Nat → UInt8) (s : State) : Prop where
  last    : s.device.lastAvail = s.queue.availIdx
  pending : s.device.pending = []
  used    : s.queue.usedIdx = s.driver.usedIdx + 1
  id      : (s.queue.usedRing (s.driver.usedIdx.toNat % virtioBlockQueueSize)).id = 0
  status  : s.status = virtioBlkStatusOk → Delivered disk s
  fetched : s.history.fetched = s.history.published

/-- The entry of the current call is the only one on its way. -/
structure InFlight (disk : Nat → UInt8) (s : State) : Prop where
  ahead    : s.driver.availIdx = s.driver.usedIdx + 1
  avail    : s.queue.availIdx = s.driver.availIdx
  ticket   : s.history.published = s.driver.ticket + 1
  progress : Waiting s ∨ (∃ stage, Taken disk s stage) ∨ Done disk s
  phase    : (∃ spins, s.driver.phase = .poll spins) ∨ (s.driver.phase = .readUsed ∧ Done disk s)

/-- **The invariant of orderly runs.** -/
def Inv (disk : Nat → UInt8) (s : State) : Prop :=
  Stalled s ∨ (Quiet s ∧ Prepared disk s) ∨ InFlight disk s

/-! ## §2. The device's steps. -/

variable {disk : Nat → UInt8} {s s' : State}

theorem idx_succ_ne (x : UInt16) : x + 1 ≠ x := by
  intro h
  have hnat := congrArg UInt16.toNat h
  have hlt := x.toNat_lt
  rw [UInt16.toNat_add, show (1 : UInt16).toNat = 1 from rfl] at hnat
  omega

/-- An action of the device. -/
def Action.isDevice : State.Action → Bool
  | .fetch       => true
  | .perform _ _ => true
  | .report _    => true
  | .push _      => true
  | _            => false

/-- The device leaves the driver alone. -/
theorem step_device_driver {a : State.Action} (ha : Action.isDevice a = true)
    (h : State.step disk s a = some s') : s'.driver = s.driver := by
  cases a with
  | call call => cases ha
  | advance => cases ha
  | callerWrites memory => cases ha
  | fetch =>
      simp only [State.step, State.fetch] at h
      split_ifs at h
      split at h
      · cases h
        rfl
      · cases h
  | perform index outcome =>
      obtain ⟨request, -, h⟩ := Option.bind_eq_some_iff.mp h
      split_ifs at h
      cases outcome with
      | ok =>
          cases h
          rfl
      | failed status content =>
          simp only at h
          split_ifs at h
          cases h
          rfl
  | report index =>
      obtain ⟨request, -, h⟩ := Option.bind_eq_some_iff.mp h
      split at h
      · cases h
        rfl
      · cases h
  | push index =>
      obtain ⟨request, -, h⟩ := Option.bind_eq_some_iff.mp h
      split at h
      · cases h
        rfl
      · cases h

/-- Where nothing is outstanding the device has nothing to do. -/
theorem no_device_step {a : State.Action} (ha : Action.isDevice a = true)
    (hlast : s.device.lastAvail = s.queue.availIdx) (hpending : s.device.pending = []) :
    State.step disk s a = none := by
  cases a with
  | call call => cases ha
  | advance => cases ha
  | callerWrites memory => cases ha
  | fetch => exact if_pos hlast
  | perform index outcome =>
      show State.perform disk s index outcome = none
      simp [State.perform, hpending]
  | report index =>
      show State.report s index = none
      simp [State.report, hpending]
  | push index =>
      show State.push s index = none
      simp [State.push, hpending]

/-- A published entry can only be fetched, and the device then has this call's
    request. -/
theorem Waiting.device_step (h : Waiting s) (hf : InFlight disk s) {a : State.Action}
    (ha : Action.isDevice a = true) (hstep : State.step disk s a = some s') :
    Taken disk s' .fetched ∧ s'.queue = s.queue ∧ s'.history.published = s.history.published := by
  have hpending := h.pending
  cases a with
  | call call => cases ha
  | advance => cases ha
  | callerWrites memory => cases ha
  | fetch =>
      have hslot := h.slot
      rw [← h.last] at hslot
      have hbuffer := h.chained.buffer
      simp only [State.step, State.fetch, hslot, h.chained.next, hbuffer] at hstep
      split_ifs at hstep with hsame
      cases hstep
      refine ⟨⟨?_, h.used, ?_, ?_, trivial⟩, rfl, rfl⟩
      · show s.device.lastAvail + 1 = s.queue.availIdx
        rw [h.last, hf.avail, hf.ahead]
      · show s.device.pending ++ _ = _
        rw [hpending, h.fetched, h.chained.sector, h.chained.length]
        rfl
      · show s.history.fetched + 1 = s.history.published
        rw [h.fetched, hf.ticket]
  | perform index outcome => simp [State.step, State.perform, hpending] at hstep
  | report index => simp [State.step, State.report, hpending] at hstep
  | push index => simp [State.step, State.push, hpending] at hstep

theorem Taken.only {stage : RequestStage} (h : Taken disk s stage) {index : Nat} {request : Fetched}
    (hrequest : s.device.pending[index]? = some request) :
    index = 0 ∧ callRequest s stage = request := by
  rw [h.pending] at hrequest
  cases index with
  | zero => exact ⟨rfl, Option.some.inj hrequest⟩
  | succ index => simp at hrequest

/-- The request of the call goes from stage to stage until its element is pushed. -/
theorem Taken.device_step {stage : RequestStage} (h : Taken disk s stage) {a : State.Action}
    (ha : Action.isDevice a = true) (hstep : State.step disk s a = some s') :
    ((∃ stage', Taken disk s' stage') ∨ Done disk s') ∧ s'.queue.availIdx = s.queue.availIdx
      ∧ s'.history.published = s.history.published := by
  have hpending := h.pending
  cases a with
  | call call => cases ha
  | advance => cases ha
  | callerWrites memory => cases ha
  | fetch =>
      exfalso
      rw [State.step, State.fetch, if_pos h.last] at hstep
      cases hstep
  | perform index outcome =>
      obtain ⟨request, hrequest, hstep⟩ := Option.bind_eq_some_iff.mp hstep
      obtain ⟨rfl, rfl⟩ := h.only hrequest
      split_ifs at hstep with hfetched
      -- the transfer goes to the buffer of the call
      have hwritten : ∀ content i, i < s.driver.call.length →
          State.writeBuffer s.memory s.driver.call.address s.driver.call.length content
            (s.driver.call.address + i) = content i := by
        intro content i hi
        unfold State.writeBuffer
        rw [if_pos ⟨by omega, by omega⟩, Nat.add_sub_cancel_left]
      cases outcome with
      | ok =>
          cases hstep
          refine ⟨.inl ⟨.performed virtioBlkStatusOk, h.last, h.used, ?_, h.fetched, ?_⟩, rfl, rfl⟩
          · show s.device.pending.set 0 _ = _
            rw [hpending]
            rfl
          · intro _
            refine ⟨List.mem_cons_self, ?_⟩
            intro i hi
            exact hwritten (fun i => disk (virtioSectorSize * s.driver.call.sector + i)) i hi
      | failed status content =>
          simp only at hstep
          split_ifs at hstep with hstatus
          cases hstep
          refine ⟨.inl ⟨.performed status, h.last, h.used, ?_, h.fetched, ?_⟩, rfl, rfl⟩
          · show s.device.pending.set 0 _ = _
            rw [hpending]
            rfl
          · intro hok
            exact absurd hok hstatus
  | report index =>
      obtain ⟨request, hrequest, hstep⟩ := Option.bind_eq_some_iff.mp hstep
      obtain ⟨rfl, rfl⟩ := h.only hrequest
      cases stage with
      | fetched => cases hstep
      | reported status => cases hstep
      | performed status =>
          cases hstep
          refine ⟨.inl ⟨.reported status, h.last, h.used, ?_, h.fetched, rfl, h.stage⟩, rfl, rfl⟩
          show s.device.pending.set 0 _ = _
          rw [hpending]
          rfl
  | push index =>
      obtain ⟨request, hrequest, hstep⟩ := Option.bind_eq_some_iff.mp hstep
      obtain ⟨rfl, rfl⟩ := h.only hrequest
      cases stage with
      | fetched => cases hstep
      | performed status => cases hstep
      | reported status =>
          cases hstep
          obtain ⟨hstatus, hdelivered⟩ := h.stage
          refine ⟨.inr ⟨h.last, ?_, ?_, ?_, ?_, h.fetched⟩, rfl, rfl⟩
          · show s.device.pending.eraseIdx 0 = []
            rw [hpending]
            rfl
          · show s.queue.usedIdx + 1 = _
            rw [h.used]
          · show (Function.update s.queue.usedRing _ _ _).id = 0
            rw [h.used, Function.update_self]
            rfl
          · intro hok
            exact hdelivered (hstatus.symm.trans hok)

/-- **The device's steps keep the invariant.** -/
theorem Inv.device_step (h : Inv disk s) {a : State.Action} (ha : Action.isDevice a = true)
    (hstep : State.step disk s a = some s') : Inv disk s' := by
  have hdriver := step_device_driver ha hstep
  rcases h with hstalled | ⟨hquiet, -⟩ | hf
  · left
    exact ⟨by rw [hdriver]; exact hstalled.ahead, by rw [hdriver]; exact hstalled.outside⟩
  · rw [no_device_step ha hquiet.last hquiet.pending] at hstep
    cases hstep
  · right
    right
    rcases hf.progress with hwaiting | ⟨stage, htaken⟩ | hdone
    · obtain ⟨htaken, hqueue, hpublished⟩ := hwaiting.device_step hf ha hstep
      refine ⟨by rw [hdriver]; exact hf.ahead, by rw [hqueue, hdriver]; exact hf.avail,
        by rw [hpublished, hdriver]; exact hf.ticket, .inr (.inl ⟨_, htaken⟩), ?_⟩
      rcases hf.phase with hpoll | ⟨-, hdone⟩
      · exact .inl (by rw [hdriver]; exact hpoll)
      · -- an unfetched entry is not done
        exact absurd (hdone.used.symm.trans hwaiting.used) (idx_succ_ne _)
    · obtain ⟨hnext, havail, hpublished⟩ := htaken.device_step ha hstep
      refine ⟨by rw [hdriver]; exact hf.ahead, by rw [havail, hdriver]; exact hf.avail,
        by rw [hpublished, hdriver]; exact hf.ticket, .inr hnext, ?_⟩
      rcases hf.phase with hpoll | ⟨-, hdone⟩
      · exact .inl (by rw [hdriver]; exact hpoll)
      · exact absurd (hdone.used.symm.trans htaken.used) (idx_succ_ne _)
    · rw [no_device_step ha hdone.last hdone.pending] at hstep
      cases hstep

/-! ## §3. The driver's steps. -/

/-- Preparing a request leaves the rings and the device as they are. -/
theorem Quiet.of_eq (h : Quiet s) (havail : s'.driver.availIdx = s.driver.availIdx)
    (hused : s'.driver.usedIdx = s.driver.usedIdx) (hqueueAvail : s'.queue.availIdx = s.queue.availIdx)
    (hqueueUsed : s'.queue.usedIdx = s.queue.usedIdx) (hdevice : s'.device = s.device)
    (hhistory : s'.history = s.history) : Quiet s' := by
  refine ⟨?_, ?_, ?_, ?_, ?_, ?_⟩
  · rw [havail, hused]
    exact h.even
  · rw [hqueueAvail, havail]
    exact h.avail
  · rw [hqueueUsed, hused]
    exact h.used
  · rw [hdevice, hqueueAvail]
    exact h.last
  · rw [hdevice]
    exact h.pending
  · rw [hhistory]
    exact h.fetched

/-- **The steps of the driver up to publication**, and its return. -/
theorem Quiet.advance (h : Quiet s) (hprepared : Prepared disk s) (hstep : s.advance = some s') :
    Inv disk s' := by
  unfold State.advance at hstep
  unfold Prepared at hprepared
  cases hphase : s.driver.phase with
  | idle =>
      rw [hphase] at hstep
      cases hstep
  | writeHeader =>
      rw [hphase] at hstep
      cases hstep
      exact .inr (.inl ⟨h.of_eq rfl rfl rfl rfl rfl rfl, rfl⟩)
  | writeStatus =>
      rw [hphase] at hstep hprepared
      cases hstep
      exact .inr (.inl ⟨h.of_eq rfl rfl rfl rfl rfl rfl, hprepared⟩)
  | writeDescriptor0 =>
      rw [hphase] at hstep hprepared
      cases hstep
      refine .inr (.inl ⟨h.of_eq rfl rfl rfl rfl rfl rfl, hprepared, ?_⟩)
      rw [State.writeDescriptor_same]
  | writeDescriptor1 =>
      rw [hphase] at hstep hprepared
      cases hstep
      refine .inr (.inl ⟨h.of_eq rfl rfl rfl rfl rfl rfl, hprepared.1, ?_, ?_, ?_⟩)
      · rw [State.writeDescriptor_other _ (by decide)]
        exact hprepared.2
      · rw [State.writeDescriptor_same]
        rfl
      · rw [State.writeDescriptor_same]
        rfl
  | writeDescriptor2 =>
      rw [hphase] at hstep hprepared
      cases hstep
      refine .inr (.inl ⟨h.of_eq rfl rfl rfl rfl rfl rfl, hprepared.sector, ?_, ?_, ?_⟩)
      · rw [State.writeDescriptor_other _ (by decide)]
        exact hprepared.next
      · rw [State.writeDescriptor_other _ (by decide)]
        exact hprepared.buffer
      · rw [State.writeDescriptor_other _ (by decide)]
        exact hprepared.length
  | setAvailRing =>
      rw [hphase] at hstep hprepared
      cases hstep
      refine .inr (.inl ⟨h.of_eq rfl rfl rfl rfl rfl rfl,
        ⟨hprepared.sector, hprepared.next, hprepared.buffer, hprepared.length⟩, ?_⟩)
      show Function.update s.queue.availRing _ 0 _ = 0
      exact Function.update_self _ _ _
  | setAvailIdx =>
      -- the entry is published: from here on it is in flight
      rw [hphase] at hstep hprepared
      cases hstep
      obtain ⟨hchained, hslot⟩ := hprepared
      rw [h.even] at hslot
      refine .inr (.inr ⟨?_, rfl, rfl, .inl ⟨?_, h.pending, h.used, h.fetched,
        ⟨hchained.sector, hchained.next, hchained.buffer, hchained.length⟩, hslot⟩, .inl ⟨0, rfl⟩⟩)
      · show s.driver.availIdx + 1 = s.driver.usedIdx + 1
        rw [h.even]
      · show s.device.lastAvail = s.driver.usedIdx
        rw [h.last, h.avail, h.even]
  | poll spins =>
      rw [hphase] at hprepared
      exact hprepared.elim
  | readUsed =>
      rw [hphase] at hprepared
      exact hprepared.elim
  | readStatus =>
      rw [hphase] at hstep hprepared
      cases hstep
      refine .inr (.inl ⟨h.of_eq rfl rfl rfl rfl rfl rfl, ?_⟩)
      by_cases hstatus : s.status = virtioBlkStatusOk
      · have hresult : (if s.status = virtioBlkStatusOk then (.ok () : Except VirtioError Unit)
            else .error (.blockRequestFailed s.status)) = .ok () := if_pos hstatus
        rw [hresult]
        exact hprepared hstatus
      · have hresult : (if s.status = virtioBlkStatusOk then (.ok () : Except VirtioError Unit)
            else .error (.blockRequestFailed s.status)) = .error (.blockRequestFailed s.status) :=
          if_neg hstatus
        rw [hresult]
        exact trivial
  | returned result =>
      rw [hphase] at hstep
      cases hstep

/-- **Polling and consuming the used element.** -/
theorem InFlight.advance (h : InFlight disk s) (hstep : s.advance = some s') : Inv disk s' := by
  unfold State.advance at hstep
  rcases h.phase with ⟨spins, hphase⟩ | ⟨hphase, hdone⟩
  · rw [hphase] at hstep
    dsimp only at hstep
    split_ifs at hstep with hsame hlimit
    · -- a timeout leaves the indices apart
      cases hstep
      refine .inl ⟨?_, .inr ⟨_, rfl⟩⟩
      show s.driver.availIdx ≠ s.driver.usedIdx
      rw [h.ahead]
      exact idx_succ_ne _
    · cases hstep
      refine .inr (.inr ⟨h.ahead, h.avail, h.ticket, ?_, .inl ⟨spins + 1, rfl⟩⟩)
      rcases h.progress with hw | ⟨stage, ht⟩ | hd
      · exact .inl ⟨hw.last, hw.pending, hw.used, hw.fetched,
          ⟨hw.chained.sector, hw.chained.next, hw.chained.buffer, hw.chained.length⟩, hw.slot⟩
      · exact .inr (.inl ⟨stage, ht.last, ht.used, ht.pending, ht.fetched, ht.stage⟩)
      · exact absurd (hd.used.symm.trans hsame) (idx_succ_ne _)
    · cases hstep
      have hd : Done disk s := by
        rcases h.progress with hw | ⟨stage, ht⟩ | hd
        · exact absurd hw.used hsame
        · exact absurd ht.used hsame
        · exact hd
      have hd' : Done disk (s.goto .readUsed) := ⟨hd.last, hd.pending, hd.used, hd.id, hd.status, hd.fetched⟩
      exact .inr (.inr ⟨h.ahead, h.avail, h.ticket, .inr (.inr hd'), .inr ⟨rfl, hd'⟩⟩)
  · rw [hphase] at hstep
    dsimp only at hstep
    rw [if_neg (not_not.mpr hdone.id)] at hstep
    cases hstep
    refine .inr (.inl ⟨⟨h.ahead, h.avail, hdone.used, hdone.last, hdone.pending, hdone.fetched⟩, ?_⟩)
    exact hdone.status

/-- The condition of an orderly run: a call starts only when the driver has consumed
    every entry that it published. -/
def Orderly (s : State) : State.Action → Prop
  | .call _ => s.driver.availIdx = s.driver.usedIdx
  | _       => True

/-- **Every orderly step keeps the invariant.** -/
theorem Inv.step {a : State.Action} (h : Inv disk s) (hok : Orderly s a)
    (hstep : State.step disk s a = some s') : Inv disk s' := by
  cases a with
  | fetch => exact h.device_step rfl hstep
  | perform index outcome => exact h.device_step rfl hstep
  | report index => exact h.device_step rfl hstep
  | push index => exact h.device_step rfl hstep
  | advance =>
      rcases h with hstalled | ⟨hquiet, hprepared⟩ | hf
      · exfalso
        rw [State.step, State.advance] at hstep
        rcases hstalled.outside with hphase | ⟨e, hphase⟩
        · rw [hphase] at hstep
          cases hstep
        · rw [hphase] at hstep
          cases hstep
      · exact hquiet.advance hprepared hstep
      · exact hf.advance hstep
  | call call =>
      rw [State.step] at hstep
      split_ifs at hstep with houtside
      cases hstep
      rcases h with hstalled | ⟨hquiet, -⟩ | hf
      · exact absurd hok hstalled.ahead
      · refine .inr (.inl ⟨hquiet.of_eq rfl rfl rfl rfl rfl rfl, ?_⟩)
        show Prepared disk (s.enter call)
        unfold Prepared State.enter
        dsimp only
        split_ifs
        · exact trivial
        · exact trivial
        · exact trivial
      · rcases hf.phase with ⟨spins, hphase⟩ | ⟨hphase, -⟩
        · simp [State.outside, hphase] at houtside
        · simp [State.outside, hphase] at houtside
  | callerWrites memory =>
      rw [State.step] at hstep
      split_ifs at hstep with houtside
      cases hstep
      rcases h with hstalled | ⟨hquiet, -⟩ | hf
      · exact .inl ⟨hstalled.ahead, .inl rfl⟩
      · exact .inr (.inl ⟨hquiet.of_eq rfl rfl rfl rfl rfl rfl, trivial⟩)
      · rcases hf.phase with ⟨spins, hphase⟩ | ⟨hphase, -⟩
        · simp [State.outside, hphase] at houtside
        · simp [State.outside, hphase] at houtside

theorem inv_initial (disk memory : Nat → UInt8) : Inv disk (initial memory) :=
  .inr (.inl ⟨⟨rfl, rfl, rfl, rfl, rfl, rfl⟩, trivial⟩)

/-- **A read that succeeds was performed.**  In every run of calls, driver steps and
    device steps in which each call starts with `avail_idx = used_idx` (no earlier
    call has timed out): when `read_blocks` returns `Ok`, the device has performed
    the entry that this call published, and the buffer holds the sectors. -/
theorem readBlocks_ok_delivered {memory : Nat → UInt8} {actions : List State.Action}
    (hrun : run (State.step disk) (initial memory) actions = some s)
    (horderly : Along (State.step disk) Orderly (initial memory) actions)
    (hok : s.driver.phase = .returned (.ok ())) :
    s.driver.ticket ∈ s.history.performed
      ∧ ∀ i < s.driver.call.length,
          s.memory (s.driver.call.address + i) = disk (virtioSectorSize * s.driver.call.sector + i) := by
  have hinv : Inv disk s := run_invariant (State.step disk)
    (fun s a s' h hok hstep => Inv.step h hok hstep) (inv_initial disk memory) horderly hrun
  rcases hinv with hstalled | ⟨-, hprepared⟩ | hf
  · exfalso
    rcases hstalled.outside with hphase | ⟨e, hphase⟩
    · rw [hok] at hphase
      cases hphase
    · rw [hok] at hphase
      cases hphase
  · unfold Prepared at hprepared
    rw [hok] at hprepared
    exact hprepared
  · exfalso
    rcases hf.phase with ⟨spins, hphase⟩ | ⟨hphase, -⟩
    · rw [hok] at hphase
      cases hphase
    · rw [hok] at hphase
      cases hphase

/-- Enter the call, publish its entry. -/
def publish (call : ReadCall) : List State.Action :=
  .call call :: List.replicate 7 .advance

/-- One read with a prompt device. -/
def promptRead (call : ReadCall) : List State.Action :=
  publish call ++ [.fetch, .perform 0 .ok, .report 0, .push 0, .advance, .advance, .advance]

/-- A read of one sector of ones. -/
theorem readBlocks_ok_delivered_example :
    ∃ s, run (State.step fun _ => 1) (initial fun _ => 0) (promptRead ⟨3, 0x1000, 512⟩) = some s
      ∧ s.driver.phase = .returned (.ok ()) ∧ s.memory 0x1000 = 1 := by
  have horderly : Along (State.step fun _ => 1) Orderly (initial fun _ => 0)
      (promptRead ⟨3, 0x1000, 512⟩) := by
    refine ⟨rfl, fun s' _ => along_of_forall _ ?_ s'⟩
    intro a ha s
    cases a with
    | call call => simp at ha
    | _ => exact trivial
  refine ⟨_, rfl, rfl, ?_⟩
  exact (readBlocks_ok_delivered (s := _) rfl horderly rfl).2 0 (by decide)

/-! ## §4. After a timeout. -/

/-- The polling limit runs out while the used index stands still. -/
theorem run_poll_timeout (disk : Nat → UInt8) (n : Nat) {s : State} {spins : Nat}
    (hphase : s.driver.phase = .poll spins) (hsame : s.queue.usedIdx = s.driver.usedIdx)
    (hleft : spins + n = virtioBlockRequestPollLimit) :
    run (State.step disk) s (List.replicate (n + 1) .advance)
      = some (s.goto (.returned (.error .requestTimeout))) := by
  induction n generalizing s spins with
  | zero =>
      have hstep : State.step disk s .advance = some (s.goto (.returned (.error .requestTimeout))) := by
        show s.advance = _
        simp only [State.advance, hphase]
        rw [if_pos hsame, if_pos (show spins = _ from hleft)]
      show (State.step disk s .advance).bind _ = _
      rw [hstep]
      rfl
  | succ n ih =>
      have hstep : State.step disk s .advance = some (s.goto (.poll (spins + 1))) := by
        show s.advance = _
        simp only [State.advance, hphase]
        rw [if_pos hsame, if_neg (by omega)]
      show (State.step disk s .advance).bind _ = _
      rw [hstep]
      exact ih (s := s.goto (.poll (spins + 1))) rfl hsame (by omega)

/-- A call whose entry the device has fetched but not performed. -/
def fetchedOnly : List State.Action := publish ⟨0, 0x1000, 512⟩ ++ [.fetch]

/-- The driver polls for that entry. -/
def polling : State :=
  (run (State.step fun _ => 1) (initial fun _ => 0) fetchedOnly).getD (initial fun _ => 0)

/-- The next call; its entry stays unfetched while the old request completes. -/
def lateCompletion : List State.Action :=
  publish ⟨8, 0x2000, 512⟩ ++ [.perform 0 .ok, .report 0, .push 0, .advance, .advance, .advance]

/-- **A late completion is taken for the next call's.**  The first call times out
    after the device has fetched its entry.  The second call resets the status byte
    and publishes; then the first request completes, and the second call returns
    `Ok` although its entry was not even fetched and its buffer is untouched. -/
theorem readBlocks_accepts_late_completion :
    ∃ actions s, run (State.step fun _ => 1) (initial fun _ => 0) actions = some s
      ∧ s.driver.phase = .returned (.ok ()) ∧ s.driver.ticket ∉ s.history.performed
      ∧ 0 < s.driver.call.length
      ∧ s.memory (s.driver.call.address + 0) ≠ (fun _ => 1) (virtioSectorSize * s.driver.call.sector + 0) := by
  have hfetched : run (State.step fun _ => 1) (initial fun _ => 0) fetchedOnly = some polling := rfl
  have htimeout := run_poll_timeout (fun _ => 1) virtioBlockRequestPollLimit
    (show polling.driver.phase = .poll 0 from rfl) rfl (Nat.zero_add _)
  obtain ⟨s, hlate, hok, hticket, hlength, hmemory⟩ : ∃ s, run (State.step fun _ => 1)
      (polling.goto (.returned (.error .requestTimeout))) lateCompletion = some s
        ∧ s.driver.phase = .returned (.ok ()) ∧ s.driver.ticket ∉ s.history.performed
        ∧ 0 < s.driver.call.length ∧ s.memory (s.driver.call.address + 0) = 0 := by
    refine ⟨_, rfl, rfl, ?_, ?_, rfl⟩
    · show 1 ∉ [0]
      decide
    · show 0 < 512
      decide
  refine ⟨fetchedOnly ++ (List.replicate (virtioBlockRequestPollLimit + 1) .advance
    ++ lateCompletion), s, ?_, hok, hticket, hlength, ?_⟩
  · rw [run_append, hfetched, Option.bind_some, run_append, htimeout, Option.bind_some, hlate]
  · rw [hmemory]
    show (0 : UInt8) ≠ 1
    decide

end RustFirmware.Virtio
