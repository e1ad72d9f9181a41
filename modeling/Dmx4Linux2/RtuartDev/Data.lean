import Dmx4Linux2.Dmxrtuart.Idle
import Dmx4Linux2.RtuartDev.Events

/-!
# rtuart_dev — the data that passes through

The device gives the driver no buffer to receive into, and the one it gives
it to send is refused, as its `size` is zero: the driver has no buffer all
along (`Started`). The event of an octet leaves the octet out. So no octet
goes from a writer to the line (`nothing_sent`) and none from the line to a
reader (`nothing_received`).
-/

namespace Dmx4Linux2

namespace RtuartDev

open Dmxrtuart (Pl011)
open Dmxrtuart.Pc16c550 (Callback)
open Dmxrtuart.Pl011 (Action Idle Silent Seen erase erased blankReading)

namespace Device

variable {s : Device} {ev : Event}

/-- The memory the driver got from `malloc` has no buffers in it, which it
does not see to itself; nothing was done so far. -/
def Started (garbage : Pl011) : Prop := Idle garbage ∧ garbage.trace = []

/-! ## What is sent -/

/-- A buffer with more octets than it has space for is refused. -/
theorem txStart_writeBuffer (uart : Pl011) {data : List UInt8} (h : data ≠ []) :
    (uart.setBuffer 0 (writeBuffer data)).txStart 0 = uart.setBuffer 0 (writeBuffer data) := by
  have hlen : 0 < data.length := List.length_pos_iff.2 h
  have hsame : (uart.setBuffer 0 (writeBuffer data)).setBuffer 0
      { (uart.setBuffer 0 (writeBuffer data)).buffers 0 with transfered := 0 } =
        uart.setBuffer 0 (writeBuffer data) := by
    simp [Pl011.setBuffer, writeBuffer]
  have hsize : ((uart.setBuffer 0 (writeBuffer data)).buffers 0).size <
      ((uart.setBuffer 0 (writeBuffer data)).buffers 0).validcount := by
    simpa [Pl011.setBuffer, writeBuffer] using hlen
  unfold Pl011.txStart
  rw [hsame]
  dsimp only
  rw [if_pos hsize]

theorem silent_set (uart : Pl011) (cmd : SetCommand) (value : UInt64) (h : s.uart = uart) :
    Silent uart (s.set cmd value).uart := by
  subst h
  cases cmd with
  | fmt => exact Pl011.silent_setFormat _ _ _
  | baudrate =>
    rw [Device.set]
    split
    · exact .refl
    · exact .of_eq rfl rfl rfl
  | control => exact Pl011.silent_modControl _ _ _ _
  | clrControl => exact Pl011.silent_modControl _ _ _ _
  | notify => exact Pl011.silent_changeNotify _
  | clrNotify => exact Pl011.silent_changeNotify _

theorem silent_serve (h : Idle s.uart) : Silent s.uart (s.serve ev).uart := by
  cases ev with
  | «open» => exact .refl
  | read =>
    unfold Device.serve Device.getEvent
    cases s.cells .eventHead <;> exact .refl
  | write data nonempty =>
    rw [Device.serve, Device.write, txStart_writeBuffer _ nonempty]
    exact .of_eq rfl rfl rfl
  | set cmd value =>
    cases value with
    | none => exact .refl
    | some value => exact silent_set _ cmd value rfl
  | get cmd space =>
    cases cmd <;> cases space <;> simp only [Device.serve] <;> try exact .refl
    split <;> exact .refl
  | unhandled => exact .refl
  | pass mis txEmpty txBusy received rooms mallocs =>
    have hpass : (s.serve (.pass mis txEmpty txBusy received rooms mallocs)).uart =
        s.uart.step ⟨mis, txEmpty, txBusy, received, rooms, fun _ => []⟩ :=
      callbacks_uart _ _
    rw [hpass]
    exact Pl011.silent_step h fun _ => rfl

theorem silent_step (h : Idle s.uart) : Silent s.uart (s.step ev).uart := by
  unfold Device.step
  split
  · exact .refl
  · exact silent_serve h

theorem silent_run (es : List Event) (h : Idle s.uart) : Silent s.uart (run step s es).uart := by
  induction es generalizing s with
  | nil => exact .refl
  | cons ev es ih =>
    have hstep : Silent s.uart (s.step ev).uart := silent_step h
    exact hstep.trans (ih (hstep.idle h))

theorem dead_write (s : Device) (data : List UInt8) : (s.write data).dead = s.dead := rfl

/-- A living process takes a write for done. -/
theorem reply_write (h : s.dead = false) {data : List UInt8} (nonempty : data ≠ []) :
    s.reply (.write data nonempty) = some (.write data.length) := by
  have hstep : (s.step (.write data nonempty)).dead = false := by
    rw [Device.step, h]
    exact (dead_write s data).trans h
  rw [reply, h, hstep]
  rfl

/-- **Nothing that is written to the device is sent**, whatever requests and
passes there are, although each write to a process that lives is replied to
with its size. -/
theorem nothing_sent (garbage : Pl011) (h : Started garbage) (es : List Event) :
    (∀ c, .dr c ∉ (run step (create garbage) es).uart.trace) ∧
      ∀ data nonempty, (run step (create garbage) es).dead = false →
        reply (run step (create garbage) es) (.write data nonempty) =
          some (.write data.length) := by
  have hcreate : Silent garbage (create garbage).uart := Pl011.silent_create garbage
  have hall := hcreate.trans (silent_run es (hcreate.idle h.1))
  obtain ⟨as, htrace, hno⟩ := hall.trace
  constructor
  · intro c
    rw [htrace, h.2, List.nil_append]
    exact hno c
  · exact fun data nonempty hlive => reply_write hlive nonempty

/-- A write, the client asks for all of the transmitter, and it is empty. -/
def written : List Event :=
  [.write [0x55, 0xAA] (by simp), .set .notify (some 3), .pass 0 true false [] [4] []]

theorem nothing_sent_write : (∀ c, .dr c ∉ (run step (create blank) written).uart.trace) ∧
    reply (run step (create blank) written) (.write [1, 2, 3] (by simp)) = some (.write 3) := by
  obtain ⟨hsent, hreply⟩ := nothing_sent blank ⟨⟨rfl, rfl⟩, rfl⟩ written
  exact ⟨hsent, hreply [1, 2, 3] (by simp) (by decide)⟩

/-! ## What is received -/

/-- The device, but for the octets that were reported, -/
def erased (s : Device) : Device := { s with uart := s.uart.erased }

/-- and an event, but for those that are received with it. -/
def withoutOctets : Event → Event
  | .pass mis txEmpty txBusy received rooms mallocs =>
    .pass mis txEmpty txBusy (received.map blankReading) rooms mallocs
  | ev => ev

/-- A callback, but for the octet it reports. -/
def eraseCall : Callback → Callback
  | .rxChar _ => .rxChar 0
  | cb => cb

theorem calls_erase (as : List Action) : calls (as.map erase) = (calls as).map eraseCall := by
  induction as with
  | nil => rfl
  | cons a as ih =>
    have hsplit : ∀ a as, calls (a :: as) = calls [a] ++ calls as := fun a as =>
      List.filterMap_append (l := [a])
    have hone : calls [erase a] = (calls [a]).map eraseCall := by
      cases a with
      | call cb => cases cb <;> rfl
      | dr | schedule | nullPointer => rfl
    rw [List.map_cons, hsplit, hsplit a, ih, hone, List.map_append]

/-- The events of the callbacks do not have it. -/
theorem callbacks_eraseCall (s : Device) (cbs : List Callback) (ms : List (Option ℕ)) :
    s.callbacks ((cbs.map eraseCall).zip ms) = s.callbacks (cbs.zip ms) := by
  have hone : ∀ (s : Device) (cb : Callback) (m : Option ℕ),
      s.callback (eraseCall cb) m = s.callback cb m := by
    intro s cb m
    cases cb <;> rfl
  induction cbs generalizing s ms with
  | nil => rfl
  | cons cb cbs ih =>
    cases ms with
    | nil => rfl
    | cons m ms =>
      rw [List.map_cons, List.zip_cons_cons, List.zip_cons_cons, Device.callbacks, Device.callbacks,
        hone, ih]

theorem callbacks_withUart (s : Device) (uart : Pl011) (cbs : List (Callback × Option ℕ)) :
    { s with uart := uart }.callbacks cbs = { s.callbacks cbs with uart := uart } := by
  induction cbs generalizing s with
  | nil => rfl
  | cons cb cbs ih =>
    obtain ⟨cb, m⟩ := cb
    cases m with
    | none => exact ih s
    | some e => exact ih (s.callback cb (some e))

theorem mem_nullPointer_erase (as : List Action) :
    (as.map erase).contains .nullPointer = as.contains .nullPointer := by
  induction as with
  | nil => rfl
  | cons a as ih =>
    have hone : ((.nullPointer : Action) == erase a) = (.nullPointer == a) := by
      cases a with
      | call cb => cases cb <;> rfl
      | dr | schedule | nullPointer => rfl
    rw [List.map_cons, List.contains_cons, List.contains_cons, ih, hone]

theorem pass_eq (s : Device) (e : Seen) (ms : List (Option ℕ)) : s.pass e ms =
    { s.callbacks ((calls ((s.uart.step e).trace.drop s.uart.trace.length)).zip ms) with
      uart := s.uart.step e
      dead := ((s.uart.step e).trace.drop s.uart.trace.length).contains .nullPointer } := by
  unfold Device.pass
  dsimp only
  rw [callbacks_withUart]

/-- A pass of the handler. -/
theorem erased_pass (h : Idle s.uart) {e : Seen} (he : ∀ cb, e.requests cb = [])
    (ms : List (Option ℕ)) : (s.pass e ms).erased = s.erased.pass e.blank ms := by
  have hstep : s.erased.uart.step e.blank = (s.uart.step e).erased := (Pl011.step_blank h he).symm
  have hlen : s.erased.uart.trace.length = s.uart.trace.length := by
    simp [erased, Pl011.erased]
  have hnew : (s.uart.step e).erased.trace.drop s.uart.trace.length =
      ((s.uart.step e).trace.drop s.uart.trace.length).map erase := by
    simp [Pl011.erased, List.map_drop]
  have hback : ∀ cbs, s.erased.callbacks cbs = { s.callbacks cbs with uart := s.uart.erased } :=
    fun cbs => callbacks_withUart s s.uart.erased cbs
  rw [pass_eq, pass_eq, hstep, hlen, hnew, calls_erase, callbacks_eraseCall, mem_nullPointer_erase,
    hback]
  rfl

theorem erased_set (cmd : SetCommand) (value : UInt64) :
    (s.set cmd value).erased = s.erased.set cmd value := by
  cases cmd with
  | fmt => exact congrArg (fun u => { s with uart := u }) (Pl011.erased_setFormat _ _ _)
  | baudrate =>
    rw [Device.set, Device.set]
    split <;> rfl
  | control => exact congrArg (fun u => { s with uart := u }) (Pl011.erased_modControl _ _ _ _)
  | clrControl => exact congrArg (fun u => { s with uart := u }) (Pl011.erased_modControl _ _ _ _)
  | notify => exact congrArg (fun u => { s with uart := u }) (Pl011.erased_changeNotify _)
  | clrNotify => exact congrArg (fun u => { s with uart := u }) (Pl011.erased_changeNotify _)

theorem erased_serve (h : Idle s.uart) : (s.serve ev).erased = s.erased.serve (withoutOctets ev) := by
  cases ev with
  | «open» => rfl
  | read =>
    have hcells : s.erased.cells = s.cells := rfl
    show (s.serve .read).erased = s.erased.serve .read
    unfold Device.serve Device.getEvent
    rw [hcells]
    cases s.cells .eventHead <;> rfl
  | write data nonempty =>
    show (s.write data).erased = s.erased.write data
    unfold Device.write
    rw [txStart_writeBuffer _ nonempty, txStart_writeBuffer _ nonempty]
    rfl
  | set cmd value =>
    cases value with
    | none => rfl
    | some value => exact erased_set cmd value
  | get cmd space =>
    have hdivisor : s.erased.uart.divisor = s.uart.divisor := rfl
    show (s.serve (.get cmd space)).erased = s.erased.serve (.get cmd space)
    cases cmd <;> cases space <;> try rfl
    rw [Device.serve, Device.serve, hdivisor]
    split <;> rfl
  | unhandled => rfl
  | pass mis txEmpty txBusy received rooms mallocs => exact erased_pass h (fun _ => rfl) mallocs

theorem erased_step (h : Idle s.uart) : (s.step ev).erased = s.erased.step (withoutOctets ev) := by
  have hdead : s.erased.dead = s.dead := rfl
  unfold Device.step
  rw [hdead]
  split
  · rfl
  · exact erased_serve h

theorem reply_erased (h : Idle s.uart) : s.erased.reply (withoutOctets ev) = s.reply ev := by
  have hdead : s.erased.dead = s.dead := rfl
  have hanswer : s.erased.answer (withoutOctets ev) = s.answer ev := by
    cases ev with
    | get cmd space => cases cmd <;> cases space <;> rfl
    | set cmd value => cases value <;> rfl
    | «open» | read | write | unhandled | pass => rfl
  have hnext : (s.erased.step (withoutOctets ev)).dead = (s.step ev).dead := by
    rw [← erased_step h]
    rfl
  unfold reply
  rw [hdead, hnext, hanswer]

theorem outputs_withoutOctets (es : List Event) (h : Idle s.uart) :
    outputs step reply s.erased (es.map withoutOctets) = outputs step reply s es := by
  induction es generalizing s with
  | nil => rfl
  | cons ev es ih =>
    have hstep : Silent s.uart (s.step ev).uart := silent_step h
    rw [List.map_cons, outputs, outputs, reply_erased h, ← erased_step h, ih (hstep.idle h)]

/-- **Nothing that is received reaches a reader.** Two runs that are the same
but for what the octets are that were received, and of what kind the errors
of those with an error, are replied to with the same. -/
theorem nothing_received (garbage : Pl011) (h : Started garbage) (es es' : List Event)
    (hsame : es.map withoutOctets = es'.map withoutOctets) :
    outputs step reply (create garbage) es = outputs step reply (create garbage) es' := by
  have hidle : Idle (create garbage).uart := (Pl011.silent_create garbage).idle h.1
  rw [← outputs_withoutOctets es hidle, ← outputs_withoutOctets es' hidle, hsame]

/-- An octet is asked for, received with some others, and read. -/
def received (ds : List UInt64) : List Event :=
  [.set .notify (some 4), .pass 0x10 true false ds [] [some 1], .read]

/-- The second of three has an error, a framing error or an overrun. -/
theorem nothing_received_octet :
    outputs step reply (create blank) (received [0x55, 0x101, 0x33]) =
      outputs step reply (create blank) (received [0xAA, 0x8FF, 0x34]) :=
  nothing_received blank ⟨⟨rfl, rfl⟩, rfl⟩ (received [0x55, 0x101, 0x33])
    (received [0xAA, 0x8FF, 0x34]) rfl

end Device

end RtuartDev

end Dmx4Linux2
