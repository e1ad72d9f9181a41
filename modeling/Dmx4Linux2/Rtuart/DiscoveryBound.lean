import Dmx4Linux2.Rtuart.DiscoveryReply
import Dmx4Linux2.Rtuart.Requests

/-!
# rtuart DMX client — room for a discovery reply

The bytes of a discovery reply are stored from the middle of the frame on,
however many come: the reception ends with a byte that is neither preamble
nor separator, with the sixteenth byte behind the separator, or with the
timer, which the bytes of a preamble set again. `discovery_stores_iff`
says that all bytes fall into the frame just when no more than 257 of them
come before the reply ends. A port is compared with the bytes it has heard
(`Listens`), and the simulation rule does the rest.
-/

namespace Dmx4Linux2

namespace Rtuart

/-- What a port that waits for a reply is told: bytes are there, their
number an `int`, or the timer has expired. -/
inductive Signal
  | bytes (count : Option ℕ) (fifo : List UInt8) (hint : count.getD 1 < 2 ^ 31)
  | timeout

/-- The bytes that are asked for, of those that are there. -/
def reported (count : Option ℕ) (fifo : List UInt8) : List UInt8 := fifo.take (count.getD 1)

variable {p : Port} {heard bs : List UInt8}

def Port.hear (p : Port) : Signal → Port
  | .bytes count fifo _ => p.step (.receiverDataAvailable count fifo)
  | .timeout => p.step .rdmTimeout

/-- **Every byte is stored in the frame**, up to `data[512]`. -/
def Port.StoresInFrame (p : Port) : Signal → Prop
  | .bytes count fifo _ => ∀ i ∈ p.stores (count.getD 1) fifo, i ≤ 512
  | .timeout => True

/-! ## Replies -/

/-- **The bytes end a reply**: behind the preamble is something else than
the separator, or the separator and at least sixteen bytes. -/
def ReplyEnded (heard : List UInt8) : Prop :=
  ∃ i b rest, heard = List.replicate i 0xFE ++ b :: rest ∧ b ≠ 0xFE ∧
    (b ≠ 0xAA ∨ i + 17 ≤ heard.length)

/-- The bytes of a reply, as long as it is not given up. -/
def listen : Option (List UInt8) → Signal → Option (List UInt8)
  | heard, .bytes count fifo _ => heard.map (· ++ reported count fifo)
  | _, .timeout => none

/-- **No more than 257 bytes come before the reply ends.** -/
def ReplyFits : Option (List UInt8) → Signal → Prop
  | some heard, .bytes count fifo _ =>
    ¬ ReplyEnded heard → heard.length + (reported count fifo).length ≤ 257
  | _, _ => True

theorem ReplyEnded.append (h : ReplyEnded heard) (bs : List UInt8) : ReplyEnded (heard ++ bs) := by
  obtain ⟨i, b, rest, rfl, hne, hend⟩ := h
  refine ⟨i, b, rest ++ bs, by simp, hne, hend.imp id fun hlen => ?_⟩
  rw [List.length_append]
  omega

/-- The preamble of bytes is determined. -/
theorem preamble_unique {i j : ℕ} {b b' : UInt8} {rest rest' : List UInt8}
    (h : List.replicate i 0xFE ++ b :: rest = List.replicate j 0xFE ++ b' :: rest')
    (hb : b ≠ 0xFE) (hb' : b' ≠ 0xFE) : i = j ∧ b = b' := by
  induction i generalizing j with
  | zero =>
    cases j with
    | zero => exact ⟨rfl, (List.cons.inj h).1⟩
    | succ j => exact absurd (List.cons.inj h).1 hb
  | succ i ih =>
    cases j with
    | zero => exact absurd (List.cons.inj h).1.symm hb'
    | succ j =>
      obtain ⟨hij, hbb⟩ := ih (List.cons.inj h).2
      exact ⟨by omega, hbb⟩

theorem not_replyEnded_preamble (i : ℕ) : ¬ ReplyEnded (List.replicate i 0xFE) := by
  rintro ⟨j, b, rest, heq, hb, -⟩
  have hmem : b ∈ List.replicate i 0xFE := by rw [heq]; simp
  exact hb (List.eq_of_mem_replicate hmem)

theorem not_replyEnded_data {i : ℕ} {rest : List UInt8} (h : rest.length < 16) :
    ¬ ReplyEnded (List.replicate i 0xFE ++ 0xAA :: rest) := by
  rintro ⟨j, b, rest', heq, hb, hend⟩
  obtain ⟨rfl, rfl⟩ := preamble_unique heq (by decide) hb
  rcases hend with hne | hlen
  · exact hne rfl
  · rw [List.length_append, List.length_replicate, List.length_cons] at hlen
    omega

/-- What `dmx512rtuart_find_preamble` finds, by the bytes. -/
inductive PreambleSpec (bs : List UInt8) : Preamble → Prop
  | found {i : ℕ} {rest : List UInt8} (h : bs = List.replicate i 0xFE ++ 0xAA :: rest) :
      PreambleSpec bs (.found i)
  | incomplete {i : ℕ} (h : bs = List.replicate i 0xFE) : PreambleSpec bs .incomplete
  | collision {i : ℕ} {b : UInt8} {rest : List UInt8}
      (h : bs = List.replicate i 0xFE ++ b :: rest) (hpre : b ≠ 0xFE) (hsep : b ≠ 0xAA) :
      PreambleSpec bs .collision

theorem findPreamble_spec (bs : List UInt8) : PreambleSpec bs (findPreamble bs) := by
  induction bs with
  | nil => exact .incomplete (i := 0) rfl
  | cons b bs ih =>
    unfold findPreamble
    by_cases hsep : b = 0xAA
    · rw [if_pos hsep, hsep]
      exact .found (i := 0) rfl
    · rw [if_neg hsep]
      by_cases hpre : b = 0xFE
      · rw [if_neg (not_not.2 hpre), hpre]
        generalize findPreamble bs = r at ih ⊢
        cases ih with
        | found h => exact .found (by rw [h]; rfl)
        | @incomplete i h => exact .incomplete (i := i + 1) (by rw [h]; rfl)
        | @collision i _ _ h hpre' hsep' =>
          exact .collision (i := i + 1) (by rw [h]; rfl) hpre' hsep'
      · rw [if_pos hpre]
        exact .collision (i := 0) rfl hpre hsep

/-! ## Ports that listen -/

namespace Port

/-- The bytes heard lie in the frame, from `data[256]` on. -/
structure Holds (p : Port) (heard : List UInt8) : Prop where
  frame : p.rx.frame.isSome = true
  data : p.rx.data = some (256 + heard.length)
  count : p.rx.count = heard.length
  fits : heard.length ≤ 257

/-- **A port that listens to a reply**: it holds the bytes and is in the
state that belongs to them, or has no frame any more. -/
inductive Listens (p : Port) : Option (List UInt8) → Prop
  | preamble {i : ℕ} (htx : p.tx.frame.isSome = true) (hstate : p.state = .rdmdiscRecvPreamble)
      (hholds : p.Holds (List.replicate i 0xFE)) : Listens p (some (List.replicate i 0xFE))
  | data {i : ℕ} {rest : List UInt8} (htx : p.tx.frame.isSome = true)
      (hstate : p.state = .rdmdiscRecvData)
      (hholds : p.Holds (List.replicate i 0xFE ++ 0xAA :: rest))
      (hexpected : p.rx.expectedSlotsCount = i + 16) (hrest : rest.length < 16) :
      Listens p (some (List.replicate i 0xFE ++ 0xAA :: rest))
  | ended {heard : Option (List UInt8)} (hframe : p.rx.frame = none)
      (hend : ∀ bs ∈ heard, ReplyEnded bs) : Listens p heard

theorem readChars_reported {count : Option ℕ} (hint : count.getD 1 < 2 ^ 31) (fifo : List UInt8) :
    readChars fifo ((count.getD 1 : ℕ) : ℤ) = reported count fifo := by
  unfold readChars reported
  congr 1
  omega

/-! ### Where the bytes go -/

theorem stores_none (h : p.rx.frame = none) (n : ℕ) (fifo : List UInt8) : p.stores n fifo = [] := by
  unfold stores bytesRead
  rw [h, if_pos (by simp)]
  split <;> rfl

theorem Holds.stores (h : p.Holds heard)
    (hstate : p.state = .rdmdiscRecvPreamble ∨ p.state = .rdmdiscRecvData) (n : ℕ)
    (fifo : List UInt8) :
    p.stores n fifo = List.range' (256 + heard.length) (readChars fifo n).length := by
  have hread : p.bytesRead n fifo = readChars fifo n := by
    have hnone : p.rx.frame.isNone = false := by simpa using h.frame
    unfold bytesRead
    rcases hstate with hs | hs
    · rw [hnone, hs]
      rfl
    · rw [hnone, hs]
      rfl
  unfold Port.stores
  rw [h.data, hread]

theorem Holds.storesInFrame_iff (h : p.Holds heard) (hopen : ¬ ReplyEnded heard)
    (hstate : p.state = .rdmdiscRecvPreamble ∨ p.state = .rdmdiscRecvData) (s : Signal) :
    p.StoresInFrame s ↔ ReplyFits (some heard) s := by
  cases s with
  | timeout => exact Iff.rfl
  | bytes count fifo hint =>
    have hfits := h.fits
    show (∀ i ∈ p.stores (count.getD 1) fifo, i ≤ 512) ↔ (¬ ReplyEnded heard → _)
    rw [h.stores hstate, readChars_reported hint, imp_iff_right hopen]
    constructor
    · intro hall
      by_contra hover
      have hlast := hall 513 (List.mem_range'_1.2 (by omega))
      omega
    · intro hle i hi
      have hlt := (List.mem_range'_1.1 hi).2
      omega

/-- **The bytes stay in the frame just when the reply fits.** -/
theorem Listens.storesInFrame_iff {heard : Option (List UInt8)} (h : p.Listens heard) (s : Signal) :
    p.StoresInFrame s ↔ ReplyFits heard s := by
  cases h with
  | preamble htx hstate hholds =>
    exact hholds.storesInFrame_iff (not_replyEnded_preamble _) (.inl hstate) s
  | data htx hstate hholds hexpected hrest =>
    exact hholds.storesInFrame_iff (not_replyEnded_data hrest) (.inr hstate) s
  | ended hframe hend =>
    cases s with
    | timeout => cases heard <;> exact Iff.rfl
    | bytes count fifo hint =>
      refine iff_of_true ?_ ?_
      · show ∀ i ∈ p.stores (count.getD 1) fifo, i ≤ 512
        rw [stores_none hframe]
        exact nofun
      · cases heard with
        | none => trivial
        | some bs => exact fun hopen => absurd (hend bs rfl) hopen

/-! ### What a port hears next -/

theorem Holds.receive (h : p.Holds heard) (hfits : heard.length + bs.length ≤ 257) :
    ((p.storeRx (256 + heard.length) bs).advanceRx bs.length).Holds (heard ++ bs) := by
  refine ⟨?_, ?_, ?_, ?_⟩
  · show (p.rx.frame.map _).isSome = true
    rw [Option.isSome_map]
    exact h.frame
  · show p.rx.data.map (· + bs.length) = _
    rw [h.data, Option.map_some, List.length_append, Nat.add_assoc]
  · show (p.rx.count + bs.length) % 2 ^ 32 = _
    rw [h.count, List.length_append]
    omega
  · rw [List.length_append]
    exact hfits

theorem completeDiscovery_frame (hframe : p.rx.frame.isSome = true)
    (h : p.rx.expectedSlotsCount + 1 ≤ p.rx.count) : p.completeDiscovery.1.rx.frame = none := by
  unfold completeDiscovery
  rw [if_pos h]
  dsimp only
  split
  · exact checkoutFrames_rx
  · exact checkoutFrames_rx
  · next hnone =>
    have hsnd := congrArg (Option.map Entry.id) (Option.map_eq_none_iff.1 hnone)
    rw [checkoutRxFrame_snd_id, Option.map_none, Option.map_eq_none_iff] at hsnd
    rw [show p.rx.frame = none from hsnd] at hframe
    contradiction

/-- A reply whose separator has been seen ends with the sixteenth byte
behind it. -/
theorem Holds.completeDiscovery {i : ℕ} {rest : List UInt8}
    (h : p.Holds (List.replicate i 0xFE ++ 0xAA :: rest)) (htx : p.tx.frame.isSome = true)
    (hstate : p.state = .rdmdiscRecvData) (hexpected : p.rx.expectedSlotsCount = i + 16) :
    p.completeDiscovery.1.Listens (some (List.replicate i 0xFE ++ 0xAA :: rest)) := by
  have hlen : (List.replicate i (0xFE : UInt8) ++ 0xAA :: rest).length = i + (rest.length + 1) := by
    rw [List.length_append, List.length_replicate, List.length_cons]
  have hcount : p.rx.count = i + (rest.length + 1) := h.count.trans hlen
  by_cases hrest : rest.length < 16
  · have hsame : p.completeDiscovery.1 = p := by
      unfold Port.completeDiscovery
      rw [if_neg (by omega)]
    rw [hsame]
    exact .data htx hstate h hexpected hrest
  · refine .ended (completeDiscovery_frame h.frame (by omega)) ?_
    rintro _ ⟨⟩
    exact ⟨i, 0xAA, rest, rfl, by decide, .inr (by omega)⟩

/-- Bytes behind a preamble. -/
theorem Holds.receivePreamble {i n : ℕ} {fifo : List UInt8} (h : p.Holds (List.replicate i 0xFE))
    (htx : p.tx.frame.isSome = true) (hstate : p.state = .rdmdiscRecvPreamble)
    (hread : readChars fifo n = bs) (hfits : i + bs.length ≤ 257) :
    (p.receiveDiscovery n fifo).1.Listens (some (List.replicate i 0xFE ++ bs)) := by
  have hlen : (List.replicate i (0xFE : UInt8)).length = i := List.length_replicate
  have hnext := h.receive (show (List.replicate i (0xFE : UInt8)).length + bs.length ≤ 257 by omega)
  unfold Port.receiveDiscovery
  rw [h.data]
  dsimp only
  rw [hread]
  by_cases hpos : bs.length > 0
  · rw [if_pos hpos, if_pos (show (p.storeRx _ bs).state = _ from hstate)]
    have hspec := findPreamble_spec bs
    generalize findPreamble bs = r at hspec
    cases hspec with
    | @found j rest hbs =>
      have hall : List.replicate i 0xFE ++ bs = List.replicate (i + j) 0xFE ++ 0xAA :: rest := by
        rw [hbs, ← List.append_assoc, List.replicate_append_replicate]
      have hcount : p.rx.count = i := h.count.trans hlen
      have hj : j < bs.length := by
        rw [hbs, List.length_append, List.length_replicate, List.length_cons]
        omega
      rw [hall]
      rw [hall] at hnext
      refine Holds.completeDiscovery ⟨hnext.frame, hnext.data, hnext.count, hnext.fits⟩ htx rfl ?_
      show (p.rx.count + j + 16) % 2 ^ 16 = i + j + 16
      rw [hcount]
      omega
    | @incomplete j hbs =>
      have hall : List.replicate i 0xFE ++ bs = List.replicate (i + j) 0xFE := by
        rw [hbs, List.replicate_append_replicate]
      rw [hall] at hnext ⊢
      exact .preamble htx hstate hnext
    | @collision j b rest hbs hpre hsep =>
      refine .ended (answerRequest_rx _) ?_
      rintro _ ⟨⟩
      refine ⟨i + j, b, rest, ?_, hpre, .inl hsep⟩
      rw [hbs, ← List.append_assoc, List.replicate_append_replicate]
  · rw [if_neg hpos, List.length_eq_zero_iff.1 (Nat.eq_zero_of_not_pos hpos), List.append_nil]
    exact .preamble htx hstate h

/-- Bytes behind the separator. -/
theorem Holds.receiveBehind {i n : ℕ} {rest fifo : List UInt8}
    (h : p.Holds (List.replicate i 0xFE ++ 0xAA :: rest)) (htx : p.tx.frame.isSome = true)
    (hstate : p.state = .rdmdiscRecvData) (hexpected : p.rx.expectedSlotsCount = i + 16)
    (hrest : rest.length < 16) (hread : readChars fifo n = bs)
    (hfits : (List.replicate i (0xFE : UInt8) ++ 0xAA :: rest).length + bs.length ≤ 257) :
    (p.receiveDiscovery n fifo).1.Listens (some (List.replicate i 0xFE ++ 0xAA :: rest ++ bs)) := by
  have hnext := h.receive hfits
  unfold Port.receiveDiscovery
  rw [h.data]
  dsimp only
  rw [hread]
  by_cases hpos : bs.length > 0
  · have hnot : ¬ (p.storeRx (256 + (List.replicate i (0xFE : UInt8) ++ 0xAA :: rest).length)
        bs).state = .rdmdiscRecvPreamble := by
      show ¬ p.state = _
      rw [hstate]
      decide
    rw [if_pos hpos, if_neg hnot]
    rw [List.append_assoc, List.cons_append] at hnext ⊢
    exact hnext.completeDiscovery htx hstate hexpected
  · rw [if_neg hpos, List.length_eq_zero_iff.1 (Nat.eq_zero_of_not_pos hpos), List.append_nil]
    exact .data htx hstate h hexpected hrest

/-- **The next bytes of a reply**, if all of it fits. -/
theorem Listens.bytes {heard : Option (List UInt8)} {count : Option ℕ} {fifo : List UInt8}
    (h : p.Listens heard) (hint : count.getD 1 < 2 ^ 31)
    (hfits : ReplyFits heard (.bytes count fifo hint)) :
    (p.receiverDataAvailable count fifo).1.Listens (heard.map (· ++ reported count fifo)) := by
  have hread := readChars_reported hint fifo
  unfold receiverDataAvailable
  dsimp only
  cases h with
  | @preamble i htx hstate hholds =>
    obtain ⟨e, he⟩ := Option.isSome_iff_exists.1 hholds.frame
    have hlen := hfits (not_replyEnded_preamble i)
    rw [List.length_replicate] at hlen
    rw [if_neg (by rw [hstate]; decide)]
    simp only [he, hstate]
    exact Holds.receivePreamble ⟨hholds.frame, hholds.data, hholds.count, hholds.fits⟩ htx rfl hread
      hlen
  | data htx hstate hholds hexpected hrest =>
    obtain ⟨e, he⟩ := Option.isSome_iff_exists.1 hholds.frame
    rw [if_neg (by rw [hstate]; decide)]
    simp only [he, hstate]
    exact hholds.receiveBehind htx hstate hexpected hrest hread (hfits (not_replyEnded_data hrest))
  | ended hframe hend =>
    have hend' : ∀ bs ∈ heard.map (· ++ reported count fifo), ReplyEnded bs := by
      intro bs hbs
      obtain ⟨bs', hbs', rfl⟩ := Option.mem_map.1 hbs
      exact (hend bs' hbs').append _
    split
    · exact .ended hframe hend'
    · simp only [hframe]
      exact .ended hframe hend'

theorem handleRdmTimeout_frame (htx : p.tx.frame.isSome = true)
    (hstate : p.state = .rdmdiscRecvPreamble ∨ p.state = .rdmdiscRecvData) :
    p.handleRdmTimeout.1.rx.frame = none := by
  obtain ⟨e, he⟩ := Option.isSome_iff_exists.1 htx
  unfold handleRdmTimeout
  rcases hstate with hs | hs
  · simp only [he, hs]
    exact answerRequest_rx _
  · simp only [he, hs]
    exact answerRequest_rx _

/-- A timeout ends the reply. -/
theorem Listens.timeout {heard : Option (List UInt8)} (h : p.Listens heard) :
    p.handleRdmTimeout.1.Listens none := by
  refine .ended ?_ nofun
  cases h with
  | preamble htx hstate hholds => exact handleRdmTimeout_frame htx (.inl hstate)
  | data htx hstate hholds hexpected hrest => exact handleRdmTimeout_frame htx (.inr hstate)
  | ended hframe hend =>
    unfold handleRdmTimeout
    split
    · exact hframe
    · split <;> first | exact answerRequest_rx _ | exact hframe

/-- **A port listens on** as long as what it hears fits. -/
theorem Listens.hear {heard : Option (List UInt8)} (h : p.Listens heard) (s : Signal)
    (hfits : ReplyFits heard s) : (p.hear s).Listens (listen heard s) := by
  cases s with
  | bytes count fifo hint => exact h.bytes hint hfits
  | timeout => exact h.timeout

end Port

open Port

variable {request got : Entry}

theorem Hears.listens (h : Hears p request got.id []) : p.Listens (some []) := by
  refine .preamble (i := 0) ?_ h.state ⟨?_, h.data, h.count, by simp⟩
  · rw [h.tx]
    rfl
  · rw [h.rx]
    rfl

/-- **Discovery replies are stored in the frame just when they fit.** A
port that has sent a discovery request hears whatever bytes, in whatever
chunks, until the timer expires. No byte is stored behind `data[512]` just
when, at every chunk, the reply has ended before it or the bytes up to its
end are no more than 257. -/
theorem discovery_stores_iff (hwait : p.state = .waitForTxComplete)
    (htx : p.tx.frame = some request) (hrdm : request.frame.flags.isRdm)
    (hdisc : request.frame.flags.isRdmDisc) (signals : List Signal) :
    EachStep hear StoresInFrame (p.step (.transmitterEmpty (some got))) signals ↔
      EachStep listen ReplyFits (some []) signals := by
  have hstart : (p.step (.transmitterEmpty (some got))).Listens (some []) :=
    (Hears.start hwait htx hrdm hdisc).listens
  refine eachStep_iff_of_simulation (R := Listens) ?_ ?_ hstart
  · exact fun q heard s h => h.storesInFrame_iff s
  · intro q heard s h hstores
    exact h.hear s ((h.storesInFrame_iff s).1 hstores)

/-- Two chunks of a preamble, behind which nothing comes. -/
def brokenOff : List Signal :=
  [.bytes (some 2) [0xFE, 0xFE] (by norm_num), .bytes none [0xFE] (by norm_num), .timeout]

theorem discovery_stores_brokenOff :
    EachStep hear StoresInFrame (someRequester.step (.transmitterEmpty (some zeroFrame)))
      brokenOff := by
  refine (discovery_stores_iff rfl rfl rfl rfl brokenOff).2 ?_
  unfold brokenOff
  rw [eachStep_cons, eachStep_cons, eachStep_cons]
  exact ⟨fun _ => by decide, fun _ => by decide, trivial, eachStep_nil⟩

/-- Noise on the line that looks like a preamble: 258 bytes at once. -/
def longPreamble : List Signal :=
  [.bytes (some 258) (List.replicate 258 0xFE) (by norm_num)]

/-- The last of them is stored behind the frame's data. -/
theorem longPreamble_not_stored :
    ¬ EachStep hear StoresInFrame (someRequester.step (.transmitterEmpty (some zeroFrame)))
      longPreamble := by
  have hlistens : (someRequester.step (.transmitterEmpty (some zeroFrame))).Listens (some []) :=
    (Hears.start rfl rfl rfl rfl).listens
  intro h
  unfold longPreamble at h
  have hfits := (hlistens.storesInFrame_iff _).1 (eachStep_cons.1 h).1 (not_replyEnded_preamble 0)
  have hlen : (reported (some 258) (List.replicate 258 0xFE)).length = 258 := by
    unfold reported
    rw [List.length_take, List.length_replicate]
    rfl
  rw [hlen] at hfits
  simp at hfits

end Rtuart

end Dmx4Linux2
