/-
  RustFirmware.Virtio.Simulation
  ──────────────────────────────
  **THE BYTES REFINE THE RECORDS, AND NOTHING ELSE IN MEMORY CHANGES.**

  A step of the machine on bytes is a step of the machine on records (`Sim.step`): the
  device follows addresses, and `Wired` says where they lead.  `Avoids` is used twice:
  for the statics, so that no transfer reaches the queue itself, and for every other
  address, which is the frame of whole runs.
-/
import RustFirmware.Virtio.Chains
import Mathlib.Data.List.Forall2

namespace RustFirmware.Virtio.Raw

open RustFirmware.Lib

/-! ## §1. One step. -/

variable {statics : Statics} {disk : Nat → UInt8}

/-- A fetched request and its record. -/
structure Takes (statics : Statics) (raw : Fetched) (request : Virtio.Fetched) : Prop where
  head    : raw.head.toNat = request.head
  sector  : raw.sector = request.sector
  address : raw.address = request.address
  length  : raw.length = request.length
  fits    : raw.length + 1 < 2 ^ 32
  status  : raw.statusAddress = statics.status
  stage   : raw.stage = request.stage

/-- The bytes show the records. -/
structure Shows (statics : Statics) (f : State) (s : Virtio.State) : Prop where
  availIdx  : f.driver.availIdx = s.driver.availIdx
  usedIdx   : f.driver.usedIdx = s.driver.usedIdx
  phase     : f.driver.phase = s.driver.phase
  call      : f.driver.call = s.driver.call
  memory    : statics.Pictures f.memory s.queue s.header s.status s.memory
  lastAvail : f.device.lastAvail = s.device.lastAvail
  pending   : List.Forall₂ (Takes statics) f.device.pending s.device.pending

/-- What carries over from step to step. -/
structure Sim (statics : Statics) (f : State) (s : Virtio.State) : Prop where
  shows : Shows statics f s
  wired : Wired s
  clear : ∀ a, statics.Owns a → Avoids a s

variable {f f' : State} {s : Virtio.State}

/-- A slot of a ring of four. -/
theorem slot_toNat (idx : UInt16) :
    (idx % virtioBlockQueueSize.toUInt16).toNat = idx.toNat % virtioBlockQueueSize := by
  rw [UInt16.toNat_mod]
  rfl

theorem Statics.has_slot (statics : Statics) (idx : UInt16) :
    statics.queue.layout.Has (.availRing (idx.toNat % virtioBlockQueueSize))
      ∧ statics.queue.layout.Has (.usedElem (idx.toNat % virtioBlockQueueSize)) := by
  rw [statics.layout]
  have hlt : idx.toNat % virtioBlockQueueSize < 4 := Nat.mod_lt _ (by decide)
  exact ⟨hlt, hlt⟩

theorem Statics.has_descriptor (statics : Statics) {index : Nat} (h : index < 4) :
    statics.queue.layout.Has (.descriptor index) := by
  rw [statics.layout]
  exact h

theorem Statics.has_index (statics : Statics) :
    statics.queue.layout.Has .availIdx ∧ statics.queue.layout.Has .usedIdx := ⟨trivial, trivial⟩

open Statics in
/-- A descriptor written in memory is one written in the record. -/
theorem Statics.Pictures.writeDescriptor {memory outside : Memory} {status : UInt8}
    {header : Virtio.VirtioBlkReqHeader} {queue : Virtio.VirtQueue}
    (h : statics.Pictures memory queue header status outside) {index : UInt16} (hindex : index.toNat < 4)
    {raw : VirtqDescriptor} {descriptor : Virtio.VirtqDescriptor}
    (hraw : statics.Describes raw descriptor) :
    statics.Pictures (statics.queue.writeDescriptor memory index raw)
      { queue with descriptors := Function.update queue.descriptors index.toNat descriptor }
      header status outside := by
  refine h.write (statics.has_descriptor hindex) ?_ ?_
  · show statics.Describes raw (Function.update queue.descriptors index.toNat descriptor index.toNat)
    rw [Function.update_self]
    exact hraw
  · intro field hne value hvalue
    cases field with
    | descriptor index' =>
        show statics.Describes value (Function.update queue.descriptors index.toNat descriptor index')
        rw [Function.update_of_ne (fun heq => hne (by rw [heq]))]
        exact hvalue
    | _ => exact hvalue

theorem toNat_ofNat_64 {n : Nat} (h : n < 2 ^ 64) : (UInt64.ofNat n).toNat = n :=
  (UInt64.toNat_ofNat').trans (Nat.mod_eq_of_lt h)

theorem toNat_ofNat_32 {n : Nat} (h : n < 2 ^ 32) : (UInt32.ofNat n).toNat = n :=
  (UInt32.toNat_ofNat').trans (Nat.mod_eq_of_lt h)

theorem Sim.active (h : Sim statics f s) {phase : DriverPhase} (hphase : f.driver.phase = phase)
    (hbusy : Busy phase) : Active s := by
  unfold Active
  rw [← h.shows.phase, hphase]
  exact hbusy

/-- **A step of the driver.** -/
theorem Sim.advance (h : Sim statics f s) (hstep : f.advance statics = some f') :
    ∃ s', s.advance = some s' ∧ Shows statics f' s' := by
  obtain ⟨havail, hused, hphase', hcall, hmemory, hlast, hpending⟩ := h.shows
  have hslot := statics.has_slot
  unfold State.advance at hstep
  unfold Virtio.State.advance
  rw [← hphase']
  cases hphase : f.driver.phase with
  | idle =>
      rw [hphase] at hstep
      cases hstep
  | returned result =>
      rw [hphase] at hstep
      cases hstep
  | writeHeader =>
      rw [hphase] at hstep
      cases hstep
      refine ⟨_, rfl, havail, hused, rfl, hcall, ?_, hlast, hpending⟩
      refine hmemory.writeHeader ⟨rfl, rfl, ?_⟩
      show (UInt64.ofNat f.driver.call.sector).toNat = s.driver.call.sector
      rw [hcall, toNat_ofNat_64 h.wired.sized.sector]
  | writeStatus =>
      rw [hphase] at hstep
      cases hstep
      exact ⟨_, rfl, havail, hused, rfl, hcall, hmemory.writeStatus 0xff, hlast, hpending⟩
  | writeDescriptor0 =>
      rw [hphase] at hstep
      cases hstep
      refine ⟨_, rfl, havail, hused, rfl, hcall, ?_, hlast, hpending⟩
      refine hmemory.writeDescriptor (by decide) ⟨?_, rfl, rfl, rfl⟩
      have hfits := statics.headerFits
      exact toNat_ofNat_64 (by omega)
  | writeDescriptor1 =>
      have hlength := h.wired.length (h.active hphase trivial)
      rw [hphase] at hstep
      cases hstep
      refine ⟨_, rfl, havail, hused, rfl, hcall, ?_, hlast, hpending⟩
      refine hmemory.writeDescriptor (by decide) ⟨?_, ?_, rfl, rfl⟩
      · show (UInt64.ofNat f.driver.call.address).toNat = s.driver.call.address
        rw [hcall, toNat_ofNat_64 h.wired.sized.address]
      · show (UInt32.ofNat f.driver.call.length).toNat = s.driver.call.length
        rw [hcall, toNat_ofNat_32 (by omega)]
  | writeDescriptor2 =>
      rw [hphase] at hstep
      cases hstep
      refine ⟨_, rfl, havail, hused, rfl, hcall, ?_, hlast, hpending⟩
      refine hmemory.writeDescriptor (by decide) ⟨?_, rfl, rfl, rfl⟩
      have hfits := statics.statusFits
      exact toNat_ofNat_64 (by omega)
  | setAvailRing =>
      rw [hphase] at hstep
      cases hstep
      refine ⟨_, rfl, havail, hused, rfl, hcall, ?_, hlast, hpending⟩
      show statics.Pictures (statics.queue.write f.memory
        (.availRing (f.driver.availIdx % virtioBlockQueueSize.toUInt16).toNat) (0 : UInt16)) _ _ _ _
      rw [slot_toNat, havail]
      refine hmemory.write (hslot _).1 ?_ ?_
      · show (0 : Nat) = Function.update s.queue.availRing _ 0 _
        rw [Function.update_self]
      · intro field hne value hvalue
        cases field with
        | availRing slot =>
            show value.toNat = Function.update s.queue.availRing _ 0 slot
            rw [Function.update_of_ne (fun heq => hne (by rw [heq]))]
            exact hvalue
        | _ => exact hvalue
  | setAvailIdx =>
      rw [hphase] at hstep
      cases hstep
      refine ⟨_, rfl, ?_, hused, rfl, hcall, ?_, hlast, hpending⟩
      · show f.driver.availIdx + 1 = s.driver.availIdx + 1
        rw [havail]
      refine hmemory.write statics.has_index.1 ?_ ?_
      · show f.driver.availIdx + 1 = s.driver.availIdx + 1
        rw [havail]
      · intro field hne value hvalue
        cases field with
        | availIdx => exact absurd rfl hne
        | _ => exact hvalue
  | poll spins =>
      have hidx : statics.queue.usedIdx f.memory = s.queue.usedIdx :=
        hmemory.queue .usedIdx statics.has_index.2
      rw [hphase] at hstep
      dsimp only at hstep ⊢
      rw [hidx, hused] at hstep
      split_ifs at hstep ⊢ with hsame hlimit
      · cases hstep
        exact ⟨_, rfl, havail, hused, rfl, hcall, hmemory, hlast, hpending⟩
      · cases hstep
        exact ⟨_, rfl, havail, hused, rfl, hcall, hmemory, hlast, hpending⟩
      · cases hstep
        exact ⟨_, rfl, havail, hused, rfl, hcall, hmemory, hlast, hpending⟩
  | readUsed =>
      have helem : (statics.queue.usedElem f.memory
          (f.driver.usedIdx % virtioBlockQueueSize.toUInt16)).id.toNat
          = (s.queue.usedRing (s.driver.usedIdx.toNat % virtioBlockQueueSize)).id := by
        have hfield := (hmemory.queue (.usedElem (s.driver.usedIdx.toNat % virtioBlockQueueSize))
          (hslot _).2).1
        unfold VirtQueue.usedElem
        rw [slot_toNat, hused]
        exact hfield
      rw [hphase] at hstep
      dsimp only at hstep ⊢
      rw [← helem]
      by_cases hid : (statics.queue.usedElem f.memory
          (f.driver.usedIdx % virtioBlockQueueSize.toUInt16)).id = 0
      · rw [if_neg (not_not.mpr hid)] at hstep
        cases hstep
        rw [if_neg (not_not.mpr (by rw [hid]; rfl))]
        refine ⟨_, rfl, havail, ?_, rfl, hcall, hmemory, hlast, hpending⟩
        show f.driver.usedIdx + 1 = s.driver.usedIdx + 1
        rw [hused]
      · rw [if_pos hid] at hstep
        cases hstep
        have hne : (statics.queue.usedElem f.memory
            (f.driver.usedIdx % virtioBlockQueueSize.toUInt16)).id.toNat ≠ 0 :=
          fun hzero => hid (UInt32.toNat.inj hzero)
        rw [if_pos hne]
        exact ⟨_, rfl, havail, hused, rfl, hcall, hmemory, hlast, hpending⟩
  | readStatus =>
      rw [hphase] at hstep
      cases hstep
      refine ⟨_, rfl, havail, hused, ?_, hcall, hmemory, hlast, hpending⟩
      show DriverPhase.returned _ = DriverPhase.returned _
      rw [hmemory.status]

/-- What a fetch of the chain gives. -/
theorem Wired.fetch_eq (h : Wired s) (hsame : s.device.lastAvail ≠ s.queue.availIdx) (hfirst : First s)
    {address length : Nat} (hsecond : s.queue.descriptors 1
      = ⟨.buffer address, length, virtqDescFWrite ||| virtqDescFNext, 2⟩) :
    s.fetch = some { s with
      device  := { lastAvail := s.device.lastAvail + 1,
                   pending   := s.device.pending ++
                     [{ ticket := s.history.fetched, head := 0, sector := s.header.sector,
                        address := address, length := length, stage := .fetched }] },
      history := { s.history with fetched := s.history.fetched + 1 } } := by
  unfold Virtio.State.fetch
  rw [if_neg hsame, h.rings]
  dsimp only
  rw [show s.queue.descriptors 0 = _ from hfirst]
  dsimp only
  rw [hsecond]

/-- **A fetch**: the chain in memory leads where the records say. -/
theorem Sim.fetch (h : Sim statics f s) (hstep : f.fetch statics = some f') :
    ∃ s', s.fetch = some s' ∧ Shows statics f' s' := by
  obtain ⟨havail, hused, hphase, hcall, hmemory, hlast, hpending⟩ := h.shows
  have hidx : statics.queue.availIdx f.memory = s.queue.availIdx :=
    hmemory.queue .availIdx statics.has_index.1
  unfold State.fetch at hstep
  dsimp only at hstep
  rw [hidx, hlast] at hstep
  split_ifs at hstep with hsame
  cases hstep
  -- something is published, so the chain is there
  obtain ⟨hfirst, ⟨address, length, hsecond, hfits⟩, hthird⟩ :=
    h.wired.chain.resolve_right (fun hright => hsame hright.1)
  have hhead : (statics.queue.availRing f.memory
      (s.device.lastAvail % virtioBlockQueueSize.toUInt16)).toNat = 0 := by
    have hfield := hmemory.queue (.availRing (s.device.lastAvail.toNat % virtioBlockQueueSize))
      (statics.has_slot _).1
    unfold VirtQueue.availRing
    rw [slot_toNat]
    exact hfield.trans (h.wired.rings _)
  have hread : ∀ index : UInt16, index.toNat < 4 →
      statics.Describes (statics.queue.readDescriptor f.memory index)
        (s.queue.descriptors index.toNat) :=
    fun index hindex => hmemory.queue (.descriptor index.toNat) (statics.has_descriptor hindex)
  generalize hheadIs : statics.queue.availRing f.memory
    (s.device.lastAvail % virtioBlockQueueSize.toUInt16) = head at hhead ⊢
  have hraw₀ := hread head (by omega)
  rw [hhead, hfirst] at hraw₀
  generalize statics.queue.readDescriptor f.memory head = first at hraw₀ ⊢
  have hnext₀ : first.next.toNat = 1 := hraw₀.next
  have hraw₁ := hread first.next (by omega)
  rw [hnext₀, hsecond] at hraw₁
  generalize statics.queue.readDescriptor f.memory first.next = second at hraw₁ ⊢
  have hnext₁ : second.next.toNat = 2 := hraw₁.next
  have hraw₂ := hread second.next (by omega)
  rw [hnext₁, hthird] at hraw₂
  generalize statics.queue.readDescriptor f.memory second.next = third at hraw₂ ⊢
  refine ⟨_, h.wired.fetch_eq hsame hfirst hsecond, havail, hused, hphase, hcall, hmemory, ?_, ?_⟩
  · rfl
  · refine List.rel_append hpending (.cons ⟨hhead, ?_, hraw₁.addr, hraw₁.len, ?_, hraw₂.addr, rfl⟩ .nil)
    · show (headerCodec.get f.memory first.addr.toNat).sector.toNat = s.header.sector
      rw [show first.addr.toNat = statics.header from hraw₀.addr]
      exact hmemory.header.sector
    · show second.len.toNat + 1 < 2 ^ 32
      rw [show second.len.toNat = length from hraw₁.len]
      exact hfits

/-- The request at an index of both lists. -/
theorem pending_at {raws : List Fetched} {requests : List Virtio.Fetched}
    (h : List.Forall₂ (Takes statics) raws requests) {index : Nat} {raw : Fetched}
    (hraw : raws[index]? = some raw) :
    ∃ request, requests[index]? = some request ∧ Takes statics raw request := by
  induction h generalizing index with
  | nil => cases hraw
  | cons hhead _ ih =>
      cases index with
      | zero =>
          obtain rfl := Option.some.inj hraw
          exact ⟨_, rfl, hhead⟩
      | succ index => exact ih hraw

theorem pending_set {raws : List Fetched} {requests : List Virtio.Fetched}
    (h : List.Forall₂ (Takes statics) raws requests) {raw : Fetched} {request : Virtio.Fetched}
    (hnew : Takes statics raw request) (index : Nat) :
    List.Forall₂ (Takes statics) (raws.set index raw) (requests.set index request) := by
  induction h generalizing index with
  | nil => exact .nil
  | cons hhead htail ih =>
      cases index with
      | zero => exact .cons hnew htail
      | succ index => exact .cons hhead (ih index)

theorem pending_erase {raws : List Fetched} {requests : List Virtio.Fetched}
    (h : List.Forall₂ (Takes statics) raws requests) (index : Nat) :
    List.Forall₂ (Takes statics) (raws.eraseIdx index) (requests.eraseIdx index) := by
  induction h generalizing index with
  | nil => exact .nil
  | cons hhead htail ih =>
      cases index with
      | zero => exact htail
      | succ index => exact .cons hhead (ih index)

theorem Takes.staged {raw : Fetched} {request : Virtio.Fetched} (h : Takes statics raw request)
    (stage : RequestStage) :
    Takes statics { raw with stage := stage } { request with stage := stage } :=
  ⟨h.head, h.sector, h.address, h.length, h.fits, h.status, rfl⟩

/-- A transfer into a buffer outside the statics. -/
theorem Sim.transfer (h : Sim statics f s) {index : Nat} {request : Virtio.Fetched}
    (hrequest : s.device.pending[index]? = some request) (content : Nat → UInt8) :
    statics.Pictures (Virtio.State.writeBuffer f.memory request.address request.length content)
      s.queue s.header s.status
      (Virtio.State.writeBuffer s.memory request.address request.length content) := by
  have hmem := List.mem_of_getElem? hrequest
  refine h.shows.memory.writeOutside ?_ ?_
  · intro a ha
    exact writeBuffer_outside ((h.clear a ha).pending request hmem)
  · intro a ha
    unfold Virtio.State.writeBuffer
    rw [h.shows.memory.outside a ha]

theorem Sim.perform (h : Sim statics f s) {index : Nat} {outcome : Virtio.State.Outcome}
    (hstep : f.perform disk index outcome = some f') :
    ∃ s', s.perform disk index outcome = some s' ∧ Shows statics f' s' := by
  obtain ⟨havail, hused, hphase, hcall, hmemory, hlast, hpending⟩ := h.shows
  obtain ⟨raw, hraw, hstep⟩ := Option.bind_eq_some_iff.mp hstep
  obtain ⟨request, hrequest, htakes⟩ := pending_at hpending hraw
  unfold Virtio.State.perform
  rw [hrequest, Option.bind_eq_bind, Option.bind_some]
  split_ifs at hstep with hstage
  rw [htakes.stage] at hstage
  rw [if_neg hstage]
  cases outcome with
  | ok =>
      cases hstep
      refine ⟨_, rfl, havail, hused, hphase, hcall, ?_, hlast, ?_⟩
      · rw [htakes.sector, htakes.address, htakes.length]
        exact h.transfer hrequest (fun i => disk (virtioSectorSize * request.sector + i))
      · exact pending_set hpending (htakes.staged _) index
  | failed status content =>
      dsimp only at hstep ⊢
      split_ifs at hstep ⊢ with hstatus
      cases hstep
      refine ⟨_, rfl, havail, hused, hphase, hcall, ?_, hlast, ?_⟩
      · rw [htakes.address, htakes.length]
        exact h.transfer hrequest _
      · exact pending_set hpending (htakes.staged _) index

theorem Sim.report (h : Sim statics f s) {index : Nat} (hstep : f.report index = some f') :
    ∃ s', s.report index = some s' ∧ Shows statics f' s' := by
  obtain ⟨havail, hused, hphase, hcall, hmemory, hlast, hpending⟩ := h.shows
  obtain ⟨raw, hraw, hstep⟩ := Option.bind_eq_some_iff.mp hstep
  obtain ⟨request, hrequest, htakes⟩ := pending_at hpending hraw
  unfold Virtio.State.report
  rw [hrequest, Option.bind_eq_bind, Option.bind_some, ← htakes.stage]
  cases hstage : raw.stage with
  | fetched =>
      rw [hstage] at hstep
      cases hstep
  | reported status =>
      rw [hstage] at hstep
      cases hstep
  | performed status =>
      rw [hstage] at hstep
      cases hstep
      refine ⟨_, rfl, havail, hused, hphase, hcall, ?_, hlast, ?_⟩
      · rw [htakes.status]
        exact hmemory.writeStatus status
      · exact pending_set hpending (htakes.staged _) index

theorem Sim.push (h : Sim statics f s) {index : Nat} (hstep : f.push statics index = some f') :
    ∃ s', s.push index = some s' ∧ Shows statics f' s' := by
  obtain ⟨havail, hused, hphase, hcall, hmemory, hlast, hpending⟩ := h.shows
  obtain ⟨raw, hraw, hstep⟩ := Option.bind_eq_some_iff.mp hstep
  obtain ⟨request, hrequest, htakes⟩ := pending_at hpending hraw
  have hidx : statics.queue.usedIdx f.memory = s.queue.usedIdx :=
    hmemory.queue .usedIdx statics.has_index.2
  unfold Virtio.State.push
  rw [hrequest, Option.bind_eq_bind, Option.bind_some, ← htakes.stage]
  cases hstage : raw.stage with
  | fetched =>
      rw [hstage] at hstep
      cases hstep
  | performed status =>
      rw [hstage] at hstep
      cases hstep
  | reported status =>
      rw [hstage] at hstep
      dsimp only at hstep
      rw [hidx] at hstep
      cases hstep
      refine ⟨_, rfl, havail, hused, hphase, hcall, ?_, hlast, pending_erase hpending index⟩
      -- the element first, and then the index
      have helem : statics.Pictures (statics.queue.write f.memory
          (.usedElem (s.queue.usedIdx % virtioBlockQueueSize.toUInt16).toNat)
          ⟨raw.head.toUInt32, UInt32.ofNat (raw.length + 1)⟩)
          { s.queue with
            usedRing := (Function.update s.queue.usedRing
              (s.queue.usedIdx.toNat % virtioBlockQueueSize) ⟨request.head, request.length + 1⟩) }
          s.header s.status s.memory := by
        rw [slot_toNat]
        refine hmemory.write (statics.has_slot _).2 ?_ ?_
        · show _ ∧ _
          dsimp only
          rw [Function.update_self]
          refine ⟨?_, ?_⟩
          · show raw.head.toUInt32.toNat = request.head
            rw [UInt16.toNat_toUInt32, htakes.head]
          · show (UInt32.ofNat (raw.length + 1)).toNat = request.length + 1
            rw [toNat_ofNat_32 htakes.fits, htakes.length]
        · intro field hne value hvalue
          cases field with
          | usedElem slot =>
              show _ ∧ _
              dsimp only
              rw [Function.update_of_ne (fun heq => hne (by rw [heq]))]
              exact hvalue
          | _ => exact hvalue
      refine helem.write statics.has_index.2 ?_ ?_
      · rfl
      · intro field hne value hvalue
        cases field with
        | usedIdx => exact absurd rfl hne
        | _ => exact hvalue

/-- What a caller of `read_blocks` hands over: values of the argument types, and a buffer
    that is none of the statics. -/
structure Proper (statics : Statics) (call : ReadCall) : Prop where
  sized : Sized call
  apart : ∀ a, statics.Owns a → ¬ Within call.address call.length a

/-- Every call of the action is proper. -/
def Calls (statics : Statics) : Virtio.State.Action → Prop
  | .call call => Proper statics call
  | _          => True

theorem Calls.typed {a : Virtio.State.Action} (h : Calls statics a) : Typed a := by
  cases a with
  | call call => exact h.sized
  | _ => exact trivial

theorem Calls.spares {a : Virtio.State.Action} (h : Calls statics a) {address : Nat}
    (haddress : statics.Owns address) : Spares address a := by
  cases a with
  | call call => exact h.apart address haddress
  | _ => exact trivial

/-- **Every step on bytes is a step on records.** -/
theorem Sim.step (h : Sim statics f s) {a : Virtio.State.Action} (hok : Calls statics a)
    (hstep : State.step statics disk f a = some f') :
    ∃ s', Virtio.State.step disk s a = some s' ∧ Sim statics f' s' := by
  have houtside : f.outside = s.outside := by
    have hphase := h.shows.phase
    unfold State.outside Virtio.State.outside
    generalize f.driver.phase = phase at hphase ⊢
    subst hphase
    cases s.driver.phase with
    | _ => rfl
  have hshows : ∃ s', Virtio.State.step disk s a = some s' ∧ Shows statics f' s' := by
    cases a with
    | advance => exact h.advance hstep
    | fetch => exact h.fetch hstep
    | perform index outcome => exact h.perform hstep
    | report index => exact h.report hstep
    | push index => exact h.push hstep
    | call call =>
        obtain ⟨havail, hused, hphase, hcall, hmemory, hlast, hpending⟩ := h.shows
        unfold State.step at hstep
        unfold Virtio.State.step
        rw [houtside] at hstep
        split_ifs at hstep ⊢
        cases hstep
        exact ⟨_, rfl, havail, hused, rfl, rfl, hmemory, hlast, hpending⟩
    | callerWrites memory =>
        obtain ⟨havail, hused, hphase, hcall, hmemory, hlast, hpending⟩ := h.shows
        unfold State.step at hstep
        unfold Virtio.State.step
        rw [houtside] at hstep
        split_ifs at hstep ⊢
        cases hstep
        refine ⟨_, rfl, havail, hused, rfl, hcall, ?_, hlast, hpending⟩
        exact hmemory.writeOutside (fun a ha => if_pos ha) (fun a ha => if_neg ha)
  obtain ⟨s', hs', hshows⟩ := hshows
  exact ⟨s', hs', hshows, h.wired.step hok.typed hs',
    fun address haddress => ((h.clear address haddress).step (hok.spares haddress) hs').1⟩

theorem sim_initial (statics : Statics) (memory : Memory) :
    Sim statics (initial statics memory) (Virtio.initial memory) :=
  ⟨⟨rfl, rfl, rfl, rfl, pictures_cleared statics memory, rfl, .nil⟩, wired_initial memory,
    fun a _ => avoids_initial a memory⟩

/-! ## §2. Runs. -/

/-- **Every run on bytes is a run on records.**  The bytes show the records at its end. -/
theorem run_simulates {memory : Memory} {actions : List Virtio.State.Action}
    (hok : ∀ a ∈ actions, Calls statics a)
    (hrun : run (State.step statics disk) (initial statics memory) actions = some f) :
    ∃ s, run (Virtio.State.step disk) (Virtio.initial memory) actions = some s ∧ Sim statics f s := by
  have hcalls : Along (State.step statics disk) (fun _ a => Calls statics a)
      (initial statics memory) actions := along_of_forall _ (fun a ha _ => hok a ha) _
  have hstep : ∀ f s a f', Sim statics f s → Calls statics a → State.step statics disk f a = some f' →
      True ∧ ∃ s', Virtio.State.step disk s a = some s' ∧ Sim statics f' s' :=
    fun f s a f' h hok hstep => ⟨trivial, h.step hok hstep⟩
  obtain ⟨-, s, hs, hsim⟩ := run_simulation (State.step statics disk) (fun _ _ => True) (Sim statics)
    hstep (sim_initial statics memory) hcalls hrun
  exact ⟨s, hs, hsim⟩

/-- The condition of an orderly run: a call starts only when the driver has consumed
    every entry that it published. -/
def Orderly (statics : Statics) (f : State) (a : Virtio.State.Action) : Prop :=
  Calls statics a ∧ match a with
    | .call _ => f.driver.availIdx = f.driver.usedIdx
    | _       => True

theorem Orderly.records {a : Virtio.State.Action} (h : Orderly statics f a)
    (hshows : Shows statics f s) : Virtio.Orderly s a := by
  obtain ⟨-, h⟩ := h
  cases a with
  | call call =>
      show s.driver.availIdx = s.driver.usedIdx
      rw [← hshows.availIdx, ← hshows.usedIdx]
      exact h
  | _ => exact trivial

/-- A call that has returned with success was performed. -/
theorem inv_delivered {s : Virtio.State} (h : Inv disk s)
    (hreturned : s.driver.phase = .returned (.ok ())) : Delivered disk s := by
  rcases h with hstalled | ⟨-, hprepared⟩ | hf
  · exfalso
    rcases hstalled.outside with hphase | ⟨e, hphase⟩
    · rw [hreturned] at hphase
      cases hphase
    · rw [hreturned] at hphase
      cases hphase
  · unfold Prepared at hprepared
    rw [hreturned] at hprepared
    exact hprepared
  · exfalso
    rcases hf.phase with ⟨spins, hphase⟩ | ⟨hphase, -⟩
    · rw [hreturned] at hphase
      cases hphase
    · rw [hreturned] at hphase
      cases hphase

/-- **A read that succeeds has filled its buffer, byte for byte.**  In every orderly run of
    the two parties on one memory, with the device going where the descriptors in memory
    lead: when `read_blocks` returns `Ok`, the buffer of the call holds the sectors. -/
theorem run_delivers {memory : Memory} {actions : List Virtio.State.Action}
    (hok : Along (State.step statics disk) (Orderly statics) (initial statics memory) actions)
    (hrun : run (State.step statics disk) (initial statics memory) actions = some f)
    (hreturned : f.driver.phase = .returned (.ok ())) :
    ∀ i < f.driver.call.length, f.memory (f.driver.call.address + i)
      = disk (virtioSectorSize * f.driver.call.sector + i) := by
  obtain ⟨-, s, -, hsim, hinv⟩ := run_simulation (State.step statics disk) Virtio.Orderly
    (fun f s => Sim statics f s ∧ Inv disk s)
    (fun f s a f' h hok hstep => by
      have hallowed := hok.records h.1.shows
      obtain ⟨s', hs', hsim⟩ := h.1.step hok.1 hstep
      exact ⟨hallowed, s', hs', hsim, h.2.step hallowed hs'⟩)
    ⟨sim_initial statics memory, inv_initial disk memory⟩ hok hrun
  obtain ⟨-, hdelivered⟩ := inv_delivered hinv (hsim.shows.phase ▸ hreturned)
  intro i hi
  rw [hsim.shows.call] at hi ⊢
  rw [hsim.shows.memory.outside, hdelivered i hi]
  intro howned
  exact (hsim.clear _ howned).call ⟨Nat.le_add_right _ _, by omega⟩

/-- **Nothing else in memory changes.**  In every run, orderly or not, a byte that is
    none of the statics and in no buffer of any call so far is what the callers last
    wrote there: no transfer, late ones included, goes anywhere else. -/
theorem run_frame {memory : Memory} {actions : List Virtio.State.Action}
    (hok : ∀ a ∈ actions, Calls statics a)
    (hrun : run (State.step statics disk) (initial statics memory) actions = some f) {address : Nat}
    (hstatics : ¬ statics.Owns address) (hbuffers : ∀ a ∈ actions, Spares address a) :
    f.memory address = actions.foldl (callerByte address) (memory address) := by
  obtain ⟨s, hs, hsim⟩ := run_simulates hok hrun
  rw [hsim.shows.memory.outside address hstatics,
    run_avoids (avoids_initial address memory) hbuffers hs]
  rfl

/-- A queue page with the header and the status byte behind it. -/
def plainStatics : Statics where
  queue        := ⟨0x80200000, by decide, .new virtioBlockQueueSize.toUInt16 false⟩
  header       := 0x80201000
  status       := 0x80201010
  layout       := rfl
  queueFits    := by decide
  headerFits   := by decide
  statusFits   := by decide
  queueHeader  := by decide
  queueStatus  := by decide
  headerStatus := by decide

/-- One read of a sector of ones into 0x1000, by a prompt device. -/
def plainRead : List Virtio.State.Action := promptRead ⟨3, 0x1000, 512⟩

theorem plainRead_calls : ∀ a ∈ plainRead, Calls plainStatics a := by
  have hcall : Calls plainStatics (.call ⟨3, 0x1000, 512⟩) := by
    refine ⟨⟨by decide, by decide⟩, ?_⟩
    intro a ha
    unfold Statics.Owns plainStatics Within at ha
    unfold Within
    dsimp only at ha ⊢
    omega
  intro a ha
  cases a with
  | call call =>
      have hsame : call = ⟨3, 0x1000, 512⟩ := by
        simpa [plainRead, promptRead, publish] using ha
      rw [hsame]
      exact hcall
  | _ => exact trivial

/-- The call returns with success. -/
def ReturnsOk (f : State) : Bool :=
  match f.driver.phase with
  | .returned (.ok ()) => decide (f.driver.call = ⟨3, 0x1000, 512⟩)
  | _                  => false

set_option maxRecDepth 20000 in
theorem plainRead_runs :
    ∃ f, run (State.step plainStatics fun _ => 1) (initial plainStatics fun _ => 0) plainRead = some f
      ∧ f.driver.phase = .returned (.ok ()) ∧ f.driver.call = ⟨3, 0x1000, 512⟩ := by
  have hany : (run (State.step plainStatics fun _ => 1) (initial plainStatics fun _ => 0)
      plainRead).any ReturnsOk = true := by
    decide +kernel
  cases hrun : run (State.step plainStatics fun _ => 1) (initial plainStatics fun _ => 0) plainRead with
  | none =>
      rw [hrun] at hany
      cases hany
  | some f =>
      rw [hrun] at hany
      have hok : ReturnsOk f = true := hany
      unfold ReturnsOk at hok
      split at hok
      next hphase => exact ⟨f, rfl, hphase, of_decide_eq_true hok⟩
      next => cases hok

/-- That read, on records. -/
theorem run_simulates_example :
    ∃ f s, run (State.step plainStatics fun _ => 1) (initial plainStatics fun _ => 0) plainRead = some f
      ∧ run (Virtio.State.step fun _ => 1) (Virtio.initial fun _ => 0) plainRead = some s
      ∧ Shows plainStatics f s := by
  obtain ⟨f, hrun, -⟩ := plainRead_runs
  obtain ⟨s, hs, hsim⟩ := run_simulates plainRead_calls hrun
  exact ⟨f, s, hrun, hs, hsim.shows⟩

/-- It fills its buffer with ones. -/
theorem run_delivers_example :
    ∃ f, run (State.step plainStatics fun _ => 1) (initial plainStatics fun _ => 0) plainRead = some f
      ∧ f.memory 0x1000 = 1 := by
  obtain ⟨f, hrun, hreturned, hcall⟩ := plainRead_runs
  have horderly : Along (State.step plainStatics fun _ => 1) (Orderly plainStatics)
      (initial plainStatics fun _ => 0) plainRead := by
    refine ⟨⟨plainRead_calls _ List.mem_cons_self, rfl⟩, fun s' _ => along_of_forall _ ?_ s'⟩
    intro a ha s
    have hcalls := plainRead_calls a (List.mem_cons_of_mem _ ha)
    cases a with
    | call call => simp at ha
    | _ => exact ⟨hcalls, trivial⟩
  have hbyte := run_delivers horderly hrun hreturned 0 (by rw [hcall]; decide)
  rw [hcall] at hbyte
  exact ⟨f, hrun, hbyte⟩

/-- And leaves the byte behind it alone. -/
theorem run_frame_example :
    ∃ f, run (State.step plainStatics fun _ => 1) (initial plainStatics fun _ => 0) plainRead = some f
      ∧ f.memory 0x1200 = 0 := by
  obtain ⟨f, hrun, -⟩ := plainRead_runs
  have hspares : ∀ a ∈ plainRead, Spares 0x1200 a := by
    intro a ha
    cases a with
    | call call =>
        have hsame : call = ⟨3, 0x1000, 512⟩ := by
          simpa [plainRead, promptRead, publish] using ha
        rw [hsame]
        show ¬ Within 0x1000 512 0x1200
        decide
    | _ => exact trivial
  exact ⟨f, hrun, run_frame plainRead_calls hrun (by decide) hspares⟩

end RustFirmware.Virtio.Raw
