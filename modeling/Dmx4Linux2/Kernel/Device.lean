import Dmx4Linux2.Kernel.Model.Core

/-!
# dmx512 kernel core — what the operations do

What replacing a device or a port leaves alone, and what reads and writes
come to: a read takes a frame off the queue and gives its entry back to
the pool, or changes nothing; a write gives the entry back, or sends it
through the port the frame names.
-/

namespace Dmx4Linux2

namespace Kernel

open Dmx4Linux2.Core

variable {δ π : Type}

namespace State

variable {s : State δ π} {dev : δ} {port : π}

section Ports

variable [DecidableEq π]

@[simp] theorem setPort_self (s : State δ π) (port : π) (p : Port δ π) :
    (s.setPort port p).ports port = p := Function.update_self ..

theorem setPort_of_ne {port' : π} (hne : port' ≠ port) (s : State δ π) (p : Port δ π) :
    (s.setPort port p).ports port' = s.ports port' := Function.update_of_ne hne ..

@[simp] theorem setPort_devices (s : State δ π) (port : π) (p : Port δ π) :
    (s.setPort port p).devices = s.devices := rfl

/-- The ports that are removed lose their device; nothing else changes. -/
theorem foldl_removePort (ports : List π) (s : State δ π) :
    (∀ port, ((ports.foldl (fun s port => s.setPort port { s.ports port with device := none })
        s).ports port).device = if port ∈ ports then none else (s.ports port).device) ∧
      (ports.foldl (fun s port => s.setPort port { s.ports port with device := none }) s).devices =
        s.devices ∧
      (ports.foldl (fun s port => s.setPort port
        { s.ports port with device := none }) s).freeFramequeue = s.freeFramequeue ∧
      (ports.foldl (fun s port => s.setPort port { s.ports port with device := none }) s).hands =
        s.hands := by
  induction ports generalizing s with
  | nil => simp
  | cons p ports ih =>
    obtain ⟨hports, hdevices, hfree, hhands⟩ := ih (s.setPort p { s.ports p with device := none })
    refine ⟨fun port => ?_, hdevices, hfree, hhands⟩
    rw [List.foldl_cons, hports port]
    by_cases hp : port = p
    · subst hp
      simp
    · simp [setPort_of_ne hp, hp]

/-- Connecting ports changes nothing but where they lead. -/
theorem connect_spec (s : State δ π) (dmx0 dmx1 : δ) (portsCount : ℕ) :
    (s.connect dmx0 dmx1 portsCount).devices = s.devices ∧
      (s.connect dmx0 dmx1 portsCount).freeFramequeue = s.freeFramequeue ∧
      (s.connect dmx0 dmx1 portsCount).hands = s.hands ∧
      ∀ port, ((s.connect dmx0 dmx1 portsCount).ports port).device = (s.ports port).device := by
  have hset : ∀ (s : State δ π) (p : π) (userptr : Option π) (port : π),
      ((s.setPort p { s.ports p with userptr := userptr }).ports port).device =
        (s.ports port).device := by
    intro s p userptr port
    by_cases hp : port = p
    · subst hp
      simp
    · rw [setPort_of_ne hp]
  have hat : ∀ (s : State δ π) (i : ℕ), (s.connectAt dmx0 dmx1 i).devices = s.devices ∧
      (s.connectAt dmx0 dmx1 i).freeFramequeue = s.freeFramequeue ∧
      (s.connectAt dmx0 dmx1 i).hands = s.hands ∧
      ∀ port, ((s.connectAt dmx0 dmx1 i).ports port).device = (s.ports port).device := by
    intro s i
    unfold connectAt
    cases s.portByIndex dmx0 i with
    | none =>
      cases s.portByIndex dmx1 i with
      | none => exact ⟨rfl, rfl, rfl, fun _ => rfl⟩
      | some p1 => exact ⟨rfl, rfl, rfl, hset s p1 none⟩
    | some p0 =>
      cases s.portByIndex dmx1 i with
      | none => exact ⟨rfl, rfl, rfl, hset s p0 none⟩
      | some p1 => exact ⟨rfl, rfl, rfl, fun port => (hset _ p1 _ port).trans (hset s p0 _ port)⟩
  unfold connect
  generalize List.range portsCount = is
  induction is generalizing s with
  | nil => exact ⟨rfl, rfl, rfl, fun _ => rfl⟩
  | cons i is ih =>
    obtain ⟨hdevices, hfree, hhands, hports⟩ := hat s i
    obtain ⟨hdevices', hfree', hhands', hports'⟩ := ih (s.connectAt dmx0 dmx1 i)
    exact ⟨hdevices'.trans hdevices, hfree'.trans hfree, hhands'.trans hhands,
      fun port => (hports' port).trans (hports port)⟩

end Ports

variable [DecidableEq δ]

@[simp] theorem setDevice_self (s : State δ π) (dev : δ) (device : Device π) :
    (s.setDevice dev device).devices dev = device := Function.update_self ..

theorem setDevice_of_ne {dev' : δ} (hne : dev' ≠ dev) (s : State δ π) (device : Device π) :
    (s.setDevice dev device).devices dev' = s.devices dev' := Function.update_of_ne hne ..

/-- **What a read does.** -/
theorem deviceRead_cases (s : State δ π) (dev : δ) (size : ℕ) (nonblock fault : Bool) :
    (s.deviceRead dev size nonblock fault).2 = s ∧
        (∀ frame, (s.deviceRead dev size nonblock fault).1 ≠ .ok (some frame)) ∨
      ∃ e q, sizeofFrame ≤ size ∧ (s.devices dev).rxframequeue = e :: q ∧
        s.deviceRead dev size nonblock fault =
          (.ok (if fault then none else some e.frame),
            (s.setDevice dev { s.devices dev with rxframequeue := q }).putFrame e) := by
  unfold deviceRead
  by_cases hsize : size < sizeofFrame
  · rw [if_pos hsize]
    exact Or.inl ⟨rfl, by simp⟩
  · rw [if_neg hsize]
    cases hqueue : (s.devices dev).rxframequeue with
    | nil =>
      refine Or.inl ⟨rfl, fun frame => ?_⟩
      cases nonblock <;> simp
    | cons e q => exact Or.inr ⟨e, q, Nat.le_of_not_lt hsize, rfl, rfl⟩

variable [DecidableEq π]

/-- A write is sent: there is an entry for it, it is a whole frame, and
the port it names is there and has space. -/
structure Sends (s : State δ π) (dev : δ) (size : ℕ) (copy : Copy) (space : Bool) (e : Entry)
    (pool : Framequeue) (frame : Frame) (port : π) : Prop where
  pool : s.freeFramequeue = e :: pool
  size : sizeofFrame ≤ size
  copied : copy = .done frame
  named : s.portByIndex dev frame.port.toNat = some port
  space : ¬ ((s.ports port).transmitterHasSpace = true ∧ ¬ space = true)

/-- **What a write does**: it fails and the entry goes back to the pool,
if there was one; or it is sent. -/
theorem deviceWrite_cases (s : State δ π) (dev : δ) (size : ℕ) (copy : Copy) (space : Bool) :
    ((∃ err, (s.deviceWrite dev size copy space).1 = .error err) ∧
      (∀ e pool frame port, ¬ s.Sends dev size copy space e pool frame port) ∧
      ((s.deviceWrite dev size copy space).2 = s ∨
        ∃ e pool left, s.freeFramequeue = e :: pool ∧ (s.deviceWrite dev size copy space).2 =
          ({ s with freeFramequeue := pool } : State δ π).putFrame { e with frame := left })) ∨
    ∃ e pool frame port, s.Sends dev size copy space e pool frame port ∧
      s.deviceWrite dev size copy space =
        (.ok sizeofFrame, ({ s with freeFramequeue := pool } : State δ π).sendFrame port
          { e with frame := frame }) := by
  unfold deviceWrite writeRest
  cases hpool : s.freeFramequeue with
  | nil =>
    refine Or.inl ⟨⟨_, rfl⟩, fun e pool frame port hsends => ?_, Or.inl rfl⟩
    exact absurd (hpool.symm.trans hsends.pool) (by simp)
  | cons e pool =>
    simp only
    by_cases hsize : size < sizeofFrame
    · rw [if_pos hsize]
      refine Or.inl ⟨⟨_, rfl⟩, fun e pool frame port hsends => ?_, Or.inr ⟨e, pool, _, rfl, rfl⟩⟩
      exact absurd hsends.size (Nat.not_le.2 hsize)
    · rw [if_neg hsize]
      cases copy with
      | fault left =>
        refine Or.inl ⟨⟨_, rfl⟩, fun e pool frame port hsends => ?_, Or.inr ⟨e, pool, _, rfl, rfl⟩⟩
        exact absurd hsends.copied (by simp)
      | done frame =>
        have hnamed : ({ s with freeFramequeue := pool } : State δ π).portByIndex dev
            frame.port.toNat = s.portByIndex dev frame.port.toNat := rfl
        simp only [hnamed]
        cases hport : s.portByIndex dev frame.port.toNat with
        | none =>
          refine Or.inl ⟨⟨_, rfl⟩, fun e pool frame' port hsends => ?_,
            Or.inr ⟨e, pool, _, rfl, rfl⟩⟩
          obtain rfl : frame = frame' := Copy.done.inj hsends.copied
          exact absurd (hport.symm.trans hsends.named) (by simp)
        | some port =>
          simp only
          by_cases hspace : (s.ports port).transmitterHasSpace = true ∧ ¬ space = true
          · rw [if_pos hspace]
            refine Or.inl ⟨⟨_, rfl⟩, fun e pool frame' port' hsends => ?_,
              Or.inr ⟨e, pool, _, rfl, rfl⟩⟩
            obtain rfl : frame = frame' := Copy.done.inj hsends.copied
            obtain rfl : port = port' := Option.some.inj (hport.symm.trans hsends.named)
            exact hsends.space hspace
          · rw [if_neg hspace]
            exact Or.inr ⟨e, pool, frame, port,
              ⟨hpool, Nat.le_of_not_lt hsize, rfl, hport, hspace⟩, rfl⟩

end State

end Kernel

end Dmx4Linux2
