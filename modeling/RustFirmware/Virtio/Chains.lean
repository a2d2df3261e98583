/-
  RustFirmware.Virtio.Chains
  ──────────────────────────
  **WHAT EVERY RUN OF THE REQUEST QUEUE KEEPS, TIMEOUTS AND LATE COMPLETIONS INCLUDED.**

  Two facts about the records, kept by every step of either party:

    • `Wired`  — what the device fetches is the chain header, buffer, status,
    • `Avoids` — an address in no buffer of any call is in no request of the device.

  Neither asks for an orderly run: the chain is rewritten by every call in the same
  way, and a request that comes late still goes to a buffer of some call.
-/
import RustFirmware.Virtio.Machine

namespace RustFirmware.Virtio.Raw

open RustFirmware.Lib

/-! ## §1. The chain of the descriptors. -/

variable {disk : Nat → UInt8} {s s' : Virtio.State}

/-- The descriptor of the header. -/
def First (s : Virtio.State) : Prop := s.queue.descriptors 0 = ⟨.header, 16, virtqDescFNext, 1⟩

/-- The descriptor of a buffer. -/
def Second (s : Virtio.State) : Prop :=
  ∃ address length, s.queue.descriptors 1
      = ⟨.buffer address, length, virtqDescFWrite ||| virtqDescFNext, 2⟩ ∧ length + 1 < 2 ^ 32

/-- The descriptor of the status byte. -/
def Third (s : Virtio.State) : Prop := s.queue.descriptors 2 = ⟨.status, 1, virtqDescFWrite, 0⟩

/-- What the driver has written of the first chain of all. -/
def Partly (s : Virtio.State) : Prop :=
  match s.driver.phase with
  | .idle             => True
  | .writeHeader      => True
  | .writeStatus      => True
  | .writeDescriptor0 => True
  | .writeDescriptor1 => First s
  | .writeDescriptor2 => First s ∧ Second s
  | .returned _       => True
  | _                 => False

/-- A call is in progress. -/
def Busy : DriverPhase → Prop
  | .idle       => False
  | .returned _ => False
  | _           => True

def Active (s : Virtio.State) : Prop := Busy s.driver.phase

/-- What the types of the arguments and the checks of `read_blocks` say of a call. -/
structure Sized (call : ReadCall) : Prop where
  sector  : call.sector < 2 ^ 64
  address : call.address < 2 ^ 64

/-- **The rings name the chain**, and the chain is there as soon as an entry is. -/
structure Wired (s : Virtio.State) : Prop where
  rings  : ∀ slot, s.queue.availRing slot = 0
  sized  : Sized s.driver.call
  length : Active s → s.driver.call.length + 1 < 2 ^ 32
  chain  : (First s ∧ Second s ∧ Third s) ∨ (s.device.lastAvail = s.queue.availIdx ∧ Partly s)

/-- The arguments of a call have their types. -/
def Typed : Virtio.State.Action → Prop
  | .call call => Sized call
  | _          => True

/-- The device writes neither the descriptors nor the available ring, and it fetches only
    what is published. -/
theorem device_keeps_chain {a : Virtio.State.Action} (ha : Action.isDevice a = true)
    (hstep : Virtio.State.step disk s a = some s') :
    s'.queue.descriptors = s.queue.descriptors ∧ s'.queue.availRing = s.queue.availRing
      ∧ s'.queue.availIdx = s.queue.availIdx
      ∧ (s.device.lastAvail = s.queue.availIdx → s'.device.lastAvail = s.device.lastAvail) := by
  cases a with
  | call call => cases ha
  | advance => cases ha
  | callerWrites memory => cases ha
  | fetch =>
      simp only [Virtio.State.step, Virtio.State.fetch] at hstep
      split_ifs at hstep with hsame
      split at hstep
      · cases hstep
        exact ⟨rfl, rfl, rfl, fun h => absurd h hsame⟩
      · cases hstep
  | perform index outcome =>
      obtain ⟨request, -, hstep⟩ := Option.bind_eq_some_iff.mp hstep
      split_ifs at hstep
      cases outcome with
      | ok =>
          cases hstep
          exact ⟨rfl, rfl, rfl, fun _ => rfl⟩
      | failed status content =>
          simp only at hstep
          split_ifs at hstep
          cases hstep
          exact ⟨rfl, rfl, rfl, fun _ => rfl⟩
  | report index =>
      obtain ⟨request, -, hstep⟩ := Option.bind_eq_some_iff.mp hstep
      split at hstep
      · cases hstep
        exact ⟨rfl, rfl, rfl, fun _ => rfl⟩
      · cases hstep
  | push index =>
      obtain ⟨request, -, hstep⟩ := Option.bind_eq_some_iff.mp hstep
      split at hstep
      · cases hstep
        exact ⟨rfl, rfl, rfl, fun _ => rfl⟩
      · cases hstep

theorem Wired.device_step (h : Wired s) {a : Virtio.State.Action} (ha : Action.isDevice a = true)
    (hstep : Virtio.State.step disk s a = some s') : Wired s' := by
  obtain ⟨hdescriptors, hrings, havail, hlast⟩ := device_keeps_chain ha hstep
  have hdriver := step_device_driver ha hstep
  have hactive : Active s' ↔ Active s := by
    unfold Active
    rw [hdriver]
  have hpartly : Partly s' ↔ Partly s := by
    unfold Partly First Second
    rw [hdriver, hdescriptors]
  refine ⟨?_, ?_, ?_, ?_⟩
  · rw [hrings]
    exact h.rings
  · rw [hdriver]
    exact h.sized
  · rw [hactive, hdriver]
    exact h.length
  · rcases h.chain with hchain | ⟨hsame, hp⟩
    · left
      unfold First Second Third at hchain ⊢
      rw [hdescriptors]
      exact hchain
    · right
      exact ⟨by rw [havail, hlast hsame, hsame], hpartly.mpr hp⟩

/-- A step that leaves the queue alone. -/
theorem Wired.of_eq (h : Wired s) (hqueue : s'.queue = s.queue) (hdevice : s'.device = s.device)
    (hcall : s'.driver.call = s.driver.call) (hactive : Active s' → Active s)
    (hpartly : Partly s → Partly s') : Wired s' := by
  refine ⟨by rw [hqueue]; exact h.rings, by rw [hcall]; exact h.sized,
    fun ha => by rw [hcall]; exact h.length (hactive ha), ?_⟩
  rcases h.chain with hchain | ⟨hsame, hp⟩
  · left
    unfold First Second Third at hchain ⊢
    rw [hqueue]
    exact hchain
  · right
    exact ⟨by rw [hqueue, hdevice, hsame], hpartly hp⟩

/-- In the later phases the chain is complete. -/
theorem Wired.complete (h : Wired s) (hp : ¬ Partly s) : First s ∧ Second s ∧ Third s :=
  h.chain.resolve_right (fun hright => hp hright.2)

theorem Wired.advance (h : Wired s) (hstep : s.advance = some s') : Wired s' := by
  have hactive : ∀ {phase}, s.driver.phase = phase → Busy phase → Active s := by
    intro phase hphase hbusy
    unfold Active
    rw [hphase]
    exact hbusy
  unfold Virtio.State.advance at hstep
  cases hphase : s.driver.phase with
  | idle =>
      rw [hphase] at hstep
      cases hstep
  | returned result =>
      rw [hphase] at hstep
      cases hstep
  | writeHeader =>
      rw [hphase] at hstep
      cases hstep
      exact h.of_eq rfl rfl rfl (fun _ => hactive hphase trivial) (fun _ => trivial)
  | writeStatus =>
      rw [hphase] at hstep
      cases hstep
      exact h.of_eq rfl rfl rfl (fun _ => hactive hphase trivial) (fun _ => trivial)
  | writeDescriptor0 =>
      rw [hphase] at hstep
      cases hstep
      have hfirst : First ((s.goto .writeDescriptor1).writeDescriptor 0
          { addr := .header, len := 16, flags := virtqDescFNext, next := 1 }) :=
        Virtio.State.writeDescriptor_same _ _ _
      refine ⟨h.rings, h.sized, fun _ => h.length (hactive hphase trivial), ?_⟩
      rcases h.chain with ⟨-, hsecond, hthird⟩ | ⟨hsame, -⟩
      · refine Or.inl ⟨hfirst, ?_, ?_⟩
        · unfold Second
          rw [Virtio.State.writeDescriptor_other _ (by decide)]
          exact hsecond
        · unfold Third
          rw [Virtio.State.writeDescriptor_other _ (by decide)]
          exact hthird
      · exact Or.inr ⟨hsame, hfirst⟩
  | writeDescriptor1 =>
      have hlength := h.length (hactive hphase trivial)
      have hpartly : Partly s ↔ First s := by
        unfold Partly
        rw [hphase]
      rw [hphase] at hstep
      cases hstep
      have hsecond : Second ((s.goto .writeDescriptor2).writeDescriptor 1
          { addr := .buffer s.driver.call.address, len := s.driver.call.length,
            flags := virtqDescFWrite ||| virtqDescFNext, next := 2 }) :=
        ⟨_, _, Virtio.State.writeDescriptor_same _ _ _, hlength⟩
      have hfirst : First s → First ((s.goto .writeDescriptor2).writeDescriptor 1
          { addr := .buffer s.driver.call.address, len := s.driver.call.length,
            flags := virtqDescFWrite ||| virtqDescFNext, next := 2 }) := by
        intro hf
        unfold First
        rw [Virtio.State.writeDescriptor_other _ (by decide)]
        exact hf
      refine ⟨h.rings, h.sized, fun _ => hlength, ?_⟩
      rcases h.chain with ⟨hf, -, hthird⟩ | ⟨hsame, hp⟩
      · refine Or.inl ⟨hfirst hf, hsecond, ?_⟩
        unfold Third
        rw [Virtio.State.writeDescriptor_other _ (by decide)]
        exact hthird
      · exact Or.inr ⟨hsame, hfirst (hpartly.mp hp), hsecond⟩
  | writeDescriptor2 =>
      have hpair : First s ∧ Second s := by
        rcases h.chain with ⟨hf, hsecond, -⟩ | ⟨-, hp⟩
        · exact ⟨hf, hsecond⟩
        · unfold Partly at hp
          rw [hphase] at hp
          exact hp
      rw [hphase] at hstep
      cases hstep
      refine ⟨h.rings, h.sized, fun _ => h.length (hactive hphase trivial),
        Or.inl ⟨?_, ?_, Virtio.State.writeDescriptor_same _ _ _⟩⟩
      · unfold First
        rw [Virtio.State.writeDescriptor_other _ (by decide)]
        exact hpair.1
      · unfold Second
        rw [Virtio.State.writeDescriptor_other _ (by decide)]
        exact hpair.2
  | setAvailRing =>
      have hcomplete := h.complete (by unfold Partly; rw [hphase]; exact id)
      rw [hphase] at hstep
      cases hstep
      refine ⟨?_, h.sized, fun _ => h.length (hactive hphase trivial), Or.inl hcomplete⟩
      intro slot
      show Function.update s.queue.availRing _ 0 slot = 0
      rw [Function.update_apply, h.rings slot, ite_self]
  | setAvailIdx =>
      have hcomplete := h.complete (by unfold Partly; rw [hphase]; exact id)
      rw [hphase] at hstep
      cases hstep
      exact ⟨h.rings, h.sized, fun _ => h.length (hactive hphase trivial), Or.inl hcomplete⟩
  | poll spins =>
      have hcomplete := h.complete (by unfold Partly; rw [hphase]; exact id)
      have hlength := h.length (hactive hphase trivial)
      rw [hphase] at hstep
      dsimp only at hstep
      split_ifs at hstep
      · cases hstep
        exact ⟨h.rings, h.sized, fun _ => hlength, Or.inl hcomplete⟩
      · cases hstep
        exact ⟨h.rings, h.sized, fun _ => hlength, Or.inl hcomplete⟩
      · cases hstep
        exact ⟨h.rings, h.sized, fun _ => hlength, Or.inl hcomplete⟩
  | readUsed =>
      have hcomplete := h.complete (by unfold Partly; rw [hphase]; exact id)
      have hlength := h.length (hactive hphase trivial)
      rw [hphase] at hstep
      dsimp only at hstep
      split_ifs at hstep
      · cases hstep
        exact ⟨h.rings, h.sized, fun _ => hlength, Or.inl hcomplete⟩
      · cases hstep
        exact ⟨h.rings, h.sized, fun _ => hlength, Or.inl hcomplete⟩
  | readStatus =>
      have hcomplete := h.complete (by unfold Partly; rw [hphase]; exact id)
      have hlength := h.length (hactive hphase trivial)
      rw [hphase] at hstep
      cases hstep
      exact ⟨h.rings, h.sized, fun _ => hlength, Or.inl hcomplete⟩

/-- **Every step keeps the chain.** -/
theorem Wired.step (h : Wired s) {a : Virtio.State.Action} (hok : Typed a)
    (hstep : Virtio.State.step disk s a = some s') : Wired s' := by
  cases a with
  | fetch => exact h.device_step rfl hstep
  | perform index outcome => exact h.device_step rfl hstep
  | report index => exact h.device_step rfl hstep
  | push index => exact h.device_step rfl hstep
  | advance => exact h.advance hstep
  | call call =>
      rw [Virtio.State.step] at hstep
      split_ifs at hstep with houtside
      cases hstep
      have hpartly : Partly (s.enter call) := by
        unfold Partly Virtio.State.enter
        dsimp only
        split_ifs
        · exact trivial
        · exact trivial
        · exact trivial
      refine ⟨h.rings, hok, ?_, ?_⟩
      · intro hactive
        unfold Active Busy Virtio.State.enter at hactive
        dsimp only at hactive
        show call.length + 1 < 2 ^ 32
        unfold virtioSectorSize at hactive
        split_ifs at hactive with hempty hlarge
        · exact hactive.elim
        · omega
        · exact hactive.elim
      · rcases h.chain with hchain | ⟨hsame, -⟩
        · exact Or.inl hchain
        · exact Or.inr ⟨hsame, hpartly⟩
  | callerWrites memory =>
      rw [Virtio.State.step] at hstep
      split_ifs at hstep with houtside
      cases hstep
      exact h.of_eq rfl rfl rfl (fun ha => ha.elim) (fun _ => trivial)

theorem wired_initial (memory : Memory) : Wired (Virtio.initial memory) :=
  ⟨fun _ => rfl, ⟨Nat.two_pow_pos 64, Nat.two_pow_pos 64⟩, fun h => h.elim, Or.inr ⟨rfl, trivial⟩⟩

/-! ## §2. What no transfer reaches. -/

/-- The address is in no buffer that the driver or the device knows of. -/
structure Avoids (a : Nat) (s : Virtio.State) : Prop where
  call    : ¬ Within s.driver.call.address s.driver.call.length a
  data    : ∀ index address, (s.queue.descriptors index).addr = .buffer address →
    ¬ Within address (s.queue.descriptors index).len a
  pending : ∀ request ∈ s.device.pending, ¬ Within request.address request.length a

/-- The buffers of an action do not have the address. -/
def Spares (a : Nat) : Virtio.State.Action → Prop
  | .call call => ¬ Within call.address call.length a
  | _          => True

/-- The byte at an address after an action, where no buffer has it. -/
def callerByte (a : Nat) (byte : UInt8) : Virtio.State.Action → UInt8
  | .callerWrites memory => memory a
  | _                    => byte

theorem avoids_initial (a : Nat) (memory : Memory) : Avoids a (Virtio.initial memory) := by
  have hempty : ∀ address, ¬ Within address 0 a := fun address h => by
    unfold Within at h
    omega
  refine ⟨hempty 0, fun _ address _ => hempty address, ?_⟩
  intro request hrequest
  cases hrequest

/-- A descriptor that is written names the buffer of the call or no buffer. -/
theorem Avoids.writeDescriptor {a : Nat} (h : Avoids a s) {phase : DriverPhase} {index : Nat}
    {descriptor : Virtio.VirtqDescriptor}
    (hdescriptor : ∀ address, descriptor.addr = .buffer address →
      ¬ Within address descriptor.len a) :
    Avoids a ((s.goto phase).writeDescriptor index descriptor) := by
  refine ⟨h.call, ?_, h.pending⟩
  intro index' address haddr
  by_cases hsame : index' = index
  · subst hsame
    rw [Virtio.State.writeDescriptor_same] at haddr ⊢
    exact hdescriptor address haddr
  · rw [Virtio.State.writeDescriptor_other _ hsame] at haddr ⊢
    exact h.data index' address haddr

theorem Avoids.advance {a : Nat} (h : Avoids a s) (hstep : s.advance = some s') :
    Avoids a s' ∧ s'.memory = s.memory := by
  obtain ⟨hcall, hdata, hpending⟩ := id h
  unfold Virtio.State.advance at hstep
  cases hphase : s.driver.phase with
  | idle =>
      rw [hphase] at hstep
      cases hstep
  | returned result =>
      rw [hphase] at hstep
      cases hstep
  | writeDescriptor0 =>
      rw [hphase] at hstep
      cases hstep
      exact ⟨h.writeDescriptor (fun address haddr => by cases haddr), rfl⟩
  | writeDescriptor1 =>
      rw [hphase] at hstep
      cases hstep
      refine ⟨h.writeDescriptor ?_, rfl⟩
      intro address haddr
      cases haddr
      exact hcall
  | writeDescriptor2 =>
      rw [hphase] at hstep
      cases hstep
      exact ⟨h.writeDescriptor (fun address haddr => by cases haddr), rfl⟩
  | poll spins =>
      rw [hphase] at hstep
      dsimp only at hstep
      split_ifs at hstep
      · cases hstep
        exact ⟨⟨hcall, hdata, hpending⟩, rfl⟩
      · cases hstep
        exact ⟨⟨hcall, hdata, hpending⟩, rfl⟩
      · cases hstep
        exact ⟨⟨hcall, hdata, hpending⟩, rfl⟩
  | readUsed =>
      rw [hphase] at hstep
      dsimp only at hstep
      split_ifs at hstep
      · cases hstep
        exact ⟨⟨hcall, hdata, hpending⟩, rfl⟩
      · cases hstep
        exact ⟨⟨hcall, hdata, hpending⟩, rfl⟩
  | _ =>
      rw [hphase] at hstep
      cases hstep
      exact ⟨⟨hcall, hdata, hpending⟩, rfl⟩

/-- A transfer stays in its buffer. -/
theorem writeBuffer_outside {memory : Memory} {address length a : Nat} {content : Nat → UInt8}
    (h : ¬ Within address length a) :
    Virtio.State.writeBuffer memory address length content a = memory a := if_neg h

theorem Avoids.set {a : Nat} (h : Avoids a s) {index : Nat} {request : Virtio.Fetched}
    (hrequest : s.device.pending[index]? = some request) (stage : RequestStage) :
    ∀ r ∈ s.device.pending.set index { request with stage := stage },
      ¬ Within r.address r.length a := by
  intro r hr
  rcases List.mem_or_eq_of_mem_set hr with hr | rfl
  · exact h.pending r hr
  · exact h.pending request (List.mem_of_getElem? hrequest)

/-- **No step of either party changes a byte in no buffer.** -/
theorem Avoids.step {a : Nat} (h : Avoids a s) {action : Virtio.State.Action} (hok : Spares a action)
    (hstep : Virtio.State.step disk s action = some s') :
    Avoids a s' ∧ s'.memory a = callerByte a (s.memory a) action := by
  obtain ⟨hcall, hdata, hpending⟩ := id h
  cases action with
  | advance =>
      obtain ⟨havoids, hmemory⟩ := h.advance hstep
      exact ⟨havoids, congrFun hmemory a⟩
  | call call =>
      rw [Virtio.State.step] at hstep
      split_ifs at hstep
      cases hstep
      exact ⟨⟨hok, hdata, hpending⟩, rfl⟩
  | callerWrites memory =>
      rw [Virtio.State.step] at hstep
      split_ifs at hstep
      cases hstep
      exact ⟨⟨hcall, hdata, hpending⟩, rfl⟩
  | fetch =>
      simp only [Virtio.State.step, Virtio.State.fetch] at hstep
      split_ifs at hstep
      split at hstep
      next address haddr =>
        cases hstep
        refine ⟨⟨hcall, hdata, ?_⟩, rfl⟩
        intro request hrequest
        rcases List.mem_append.mp hrequest with hold | hnew
        · exact hpending request hold
        · obtain rfl := List.mem_singleton.mp hnew
          exact hdata _ address haddr
      next => cases hstep
  | perform index outcome =>
      obtain ⟨request, hrequest, hstep⟩ := Option.bind_eq_some_iff.mp hstep
      have hclear := hpending request (List.mem_of_getElem? hrequest)
      split_ifs at hstep
      cases outcome with
      | ok =>
          cases hstep
          refine ⟨⟨hcall, hdata, h.set hrequest _⟩, ?_⟩
          show Virtio.State.writeBuffer s.memory request.address request.length
            (fun i => disk (virtioSectorSize * request.sector + i)) a = s.memory a
          exact writeBuffer_outside hclear
      | failed status content =>
          simp only at hstep
          split_ifs at hstep
          cases hstep
          refine ⟨⟨hcall, hdata, h.set hrequest _⟩, ?_⟩
          show Virtio.State.writeBuffer s.memory request.address request.length _ a = s.memory a
          exact writeBuffer_outside hclear
  | report index =>
      obtain ⟨request, hrequest, hstep⟩ := Option.bind_eq_some_iff.mp hstep
      split at hstep
      · cases hstep
        exact ⟨⟨hcall, hdata, h.set hrequest _⟩, rfl⟩
      · cases hstep
  | push index =>
      obtain ⟨request, -, hstep⟩ := Option.bind_eq_some_iff.mp hstep
      split at hstep
      · cases hstep
        exact ⟨⟨hcall, hdata, fun r hr => hpending r (List.mem_of_mem_eraseIdx hr)⟩, rfl⟩
      · cases hstep

/-- The memory of the callers after a run, at an address in no buffer. -/
theorem run_avoids {a : Nat} {actions : List Virtio.State.Action} (h : Avoids a s)
    (hok : ∀ action ∈ actions, Spares a action)
    (hrun : run (Virtio.State.step disk) s actions = some s') :
    s'.memory a = actions.foldl (callerByte a) (s.memory a) := by
  induction actions generalizing s with
  | nil =>
      obtain rfl := Option.some.inj hrun
      rfl
  | cons action actions ih =>
      obtain ⟨s₁, hs₁, hrest⟩ := Option.bind_eq_some_iff.mp hrun
      obtain ⟨havoids, hbyte⟩ := h.step (hok action List.mem_cons_self) hs₁
      rw [ih havoids (fun b hb => hok b (List.mem_cons_of_mem _ hb)) hrest, hbyte]
      rfl

end RustFirmware.Virtio.Raw
