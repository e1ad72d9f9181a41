import Dmx4Linux2.Common.Carray
import Mathlib.Algebra.Order.Group.Int

/-!
# CUSE drivers — card information

A card is asked for the information it has by a list of tuples, each with a
key the driver fills in the value for, or with none, for whatever the card
has. The `queryCardInfo` of the three drivers are the same but for the
table of the keys they support and the values they fill in. The answer is
none where the table is read behind its end.
-/

namespace Dmx4Linux2

namespace Cuse

/-- `enum dmx4linux_tuple_id`. A key is an `unsigned int`, that may be none
of them. -/
def idNone : UInt32 := 0
def idManufacturer : UInt32 := 1
def idProduct : UInt32 := 2
def idSerialNumber : UInt32 := 3
def idCustomerName : UInt32 := 4

/-- `struct dmx4linux2_key_value_tuple` -/
structure KeyValueTuple where
  key : UInt32
  changable : Bool
  maxlength : BitVec 9
  value : List UInt8
  length_value : value.length = 256

namespace KeyValueTuple

variable (t : KeyValueTuple)

/-- `strcpy(t.value, s)` -/
def strcpy (s : List UInt8) (h : s.length < 256) : KeyValueTuple :=
  { t with
    value := Dmx4Linux2.strcpy t.value s
    length_value := by rw [length_strcpy (by rw [t.length_value]; exact h), t.length_value] }

/-- `strncpy(t.value, src, sizeof(t.value))` -/
def strncpy (src : List UInt8) : KeyValueTuple :=
  { t with value := Dmx4Linux2.strncpy 256 src, length_value := length_strncpy }

end KeyValueTuple

/-- `struct dmx4linux2_card_info`. The tuples are those from a pointer on,
which may be null. -/
structure CardInfo where
  cardIndex : ℤ
  portCount : ℤ
  tupleCount : ℤ
  tuples : Option (ℕ → KeyValueTuple)

/-- A tuple in the first loop, which reads the table at the same index. -/
def replaceNone (supported : List UInt32) (i : ℕ) (t : KeyValueTuple) : Option KeyValueTuple := do
  if t.key = idNone then
    let key ← supported[i]?
    return { t with key }
  else
    return t

/-- What the drivers do, with the user data of the card, if it has any:
`fill` is the `switch` in the second loop. -/
def queryCardInfo {σ : Type} (supported : List UInt32) (fill : σ → KeyValueTuple → KeyValueTuple)
    (portCount : σ → ℤ) (cardno : ℤ) (user : Option σ) (info : CardInfo) :
    Option (ℤ × CardInfo) := do
  match user with
  | none => return (-1, info)
  | some user =>
    let info := { info with cardIndex := cardno, portCount := portCount user }
    match info.tuples with
    | some tuples =>
      let indices := List.range info.tupleCount.toNat
      -- this loop is not bounded by the table it reads, and the next one is
      let tuples ← updateEach (replaceNone supported) indices tuples
      let tuples ← updateEach (fun _ t => some (fill user t))
        (indices.filter (· < supported.length)) tuples
      return (0, { info with tuples := some tuples })
    | none => return (0, { info with tupleCount := supported.length })

/-! ## The loop device -/

/-- What `struct testdmx_card` has of it. -/
structure TestdmxCard where
  numPorts : ℤ
  customerName : Vector UInt8 64
  portLabels : Vector (Vector UInt8 64) 16

/-- The memory from `customer_name` on: the labels of the ports are behind
it. -/
def TestdmxCard.fromName (user : TestdmxCard) : List UInt8 :=
  user.customerName.toList ++ user.portLabels.toList.flatMap Vector.toList

/-- `supported_card_tuples` -/
def testdmxSupported : List UInt32 := [idManufacturer, idProduct, idSerialNumber, idCustomerName]

def testdmxFill (user : TestdmxCard) (t : KeyValueTuple) : KeyValueTuple :=
  if t.key = idManufacturer then
    t.strcpy (literal "llg-Dmx4linux2") (by decide)
  else if t.key = idProduct then
    t.strcpy (literal "dummydmx") (by decide)
  else if t.key = idSerialNumber then
    t.strcpy (literal "0123456789") (by decide)
  else if t.key = idCustomerName then
    { t.strncpy user.fromName with changable := true, maxlength := 63#9 }
  else
    t.strcpy (literal "") (by decide)

/-- `testdmx_queryCardInfo` -/
def testdmxQueryCardInfo : ℤ → Option TestdmxCard → CardInfo → Option (ℤ × CardInfo) :=
  queryCardInfo testdmxSupported testdmxFill TestdmxCard.numPorts

/-! ## The other two -/

/-- `supported_card_tuples` of both: there is no name for the customer to
give. -/
def productSupported : List UInt32 := [idManufacturer, idProduct, idSerialNumber]

def productFill (product : List UInt8) (h : product.length < 256) (t : KeyValueTuple) :
    KeyValueTuple :=
  if t.key = idManufacturer then
    t.strcpy (literal "LLG") (by decide)
  else if t.key = idProduct then
    t.strcpy product h
  else if t.key = idSerialNumber then
    t.strcpy (literal "????????") (by decide)
  else
    t.strcpy (literal "") (by decide)

/-- `dmxllgip_queryCardInfo`. Of the user data it takes the number of
ports. -/
def dmxllgipQueryCardInfo : ℤ → Option ℤ → CardInfo → Option (ℤ × CardInfo) :=
  queryCardInfo productSupported (fun _ => productFill (literal "dmxllgip") (by decide)) id

/-- `uartdmx_queryCardInfo`. There is one port. -/
def uartdmxQueryCardInfo : ℤ → Option Unit → CardInfo → Option (ℤ × CardInfo) :=
  queryCardInfo productSupported (fun _ => productFill (literal "UART") (by decide)) fun _ => 1

end Cuse

end Dmx4Linux2
