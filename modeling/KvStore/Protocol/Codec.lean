import Mathlib.Tactic.Ring
import KvStore.Lib.Scan

/-!
# The length-prefixed command codec

`src/protocol/codec.c`. A command is `*<count>\r\n` followed by `count`
fields `$<length>\r\n<content>\r\n`. The parser's results `1`, `0` and `-1`
are the scan's `done`, `more` and `error`; a `done` also carries the bytes
after the command, which the source leaves in place in the input. Positions
are counted from the start of the input, as the source's `pos` and `offset`.
-/

namespace KvStore

open Lib

abbrev Bytes := List UInt8

/-- `SIZE_MAX` of a 64-bit `size_t`. -/
def sizeMax : Nat := 2 ^ 64 - 1

def asterisk : UInt8 := 42
def dollar : UInt8 := 36
def cr : UInt8 := 13
def lf : UInt8 := 10

def isDigit (b : UInt8) : Bool := 48 ≤ b && b ≤ 57

def digitOf (b : UInt8) : Nat := b.toNat - 48

-- ---------------------------------------------------------------------------
-- Parsing
-- ---------------------------------------------------------------------------

/-- The digit loop of `parse_number`: the position after the digits, their
value and the rest, or nothing when the next digit would pass `SIZE_MAX`. -/
def digitLoop (pos value : Nat) : Bytes → Option (Nat × Nat × Bytes)
  | [] => some (pos, value, [])
  | b :: rest =>
    if isDigit b then
      if (sizeMax - digitOf b) / 10 < value then none
      else digitLoop (pos + 1) (value * 10 + digitOf b) rest
    else some (pos, value, b :: rest)

/-- What `parse_number` does after the digits: a full `\r\n` must follow. -/
def lineEnd (pos value : Nat) : Bytes → Scan UInt8 (Nat × Nat) :=
  Scan.expect cr (Scan.expect lf (.done (pos + 2, value)))

/-- Reads `number\r\n` at `offset`; the value carries the new offset. -/
def parseNumber (offset : Nat) (input : Bytes) : Scan UInt8 (Nat × Nat) :=
  match input with
  | [] => .more
  | b :: _ =>
    if ¬isDigit b then .error
    else match digitLoop offset 0 input with
      | none => .error
      | some (pos, value, rest) => lineEnd pos value rest

/-- The content of a field of known length and the `\r\n` behind it. The
limit is checked before the content has arrived. -/
def fieldContent (maxCommandBytes : Nat) (head : Nat × Nat) (input : Bytes) :
    Scan UInt8 (Nat × Bytes) :=
  let (pos, length) := head
  if pos > maxCommandBytes ∨ maxCommandBytes - pos < 2 ∨ length > maxCommandBytes - pos - 2 then
    .error
  else if length > input.length ∨ input.length - length < 2 then .more
  else if input[length]? ≠ some cr ∨ input[length + 1]? ≠ some lf then .error
  else .done (pos + length + 2, input.take length) (input.drop (length + 2))

def parseField (maxCommandBytes offset : Nat) : Bytes → Scan UInt8 (Nat × Bytes) :=
  Scan.expect dollar fun rest =>
    (parseNumber (offset + 1) rest).bind (fieldContent maxCommandBytes)

/-- The field loop of `kvs_parse_command_limited`. -/
def parseFields (maxCommandBytes : Nat) : Nat → Nat → Bytes → Scan UInt8 (Nat × List Bytes)
  | 0, offset, input => .done (offset, []) input
  | count + 1, offset, input =>
    (parseField maxCommandBytes offset input).bind fun r rest =>
      (parseFields maxCommandBytes count r.1 rest).bind fun rs rest =>
        .done (rs.1, r.2 :: rs.2) rest

def commandBody (fieldCapacity maxCommandBytes : Nat) (head : Nat × Nat) (input : Bytes) :
    Scan UInt8 (List Bytes × Nat) :=
  let (offset, count) := head
  if offset > maxCommandBytes then .error
  else if count = 0 ∨ count > fieldCapacity then .error
  else (parseFields maxCommandBytes count offset input).bind fun r rest => .done (r.2, r.1) rest

/-- One command at the start of the input, with the fields and the number of
bytes parsed. -/
def kvsParseCommandLimited (fieldCapacity maxCommandBytes : Nat) (input : Bytes) :
    Scan UInt8 (List Bytes × Nat) :=
  if fieldCapacity = 0 ∨ maxCommandBytes = 0 then .error
  else
    Scan.expect asterisk (fun rest =>
      (parseNumber 1 rest).bind (commandBody fieldCapacity maxCommandBytes)) input

def kvsParseCommand (fieldCapacity : Nat) (input : Bytes) : Scan UInt8 (List Bytes × Nat) :=
  kvsParseCommandLimited fieldCapacity sizeMax input

-- ---------------------------------------------------------------------------
-- Encoding
-- ---------------------------------------------------------------------------

/-- The loop of `decimal_digits`; the fuel is the value, which is enough. -/
def decimalDigitsLoop : Nat → Nat → Nat → Nat
  | 0, _, digits => digits
  | fuel + 1, value, digits =>
    if value ≥ 10 then decimalDigitsLoop fuel (value / 10) (digits + 1) else digits

def decimalDigits (value : Nat) : Nat := decimalDigitsLoop value value 1

def encodedFieldSize (contentLength : Nat) : Option Nat :=
  let overhead := 1 + decimalDigits contentLength + 4
  if contentLength > sizeMax - overhead then none else some (overhead + contentLength)

/-- The summation loop of `kvs_encoded_command_size`. -/
def encodedFieldsSize (total : Nat) : List Bytes → Option Nat
  | [] => some total
  | f :: fields =>
    match encodedFieldSize f.length with
    | none => none
    | some fieldSize =>
      if total > sizeMax - fieldSize then none else encodedFieldsSize (total + fieldSize) fields

def kvsEncodedCommandSize (fields : List Bytes) : Option Nat :=
  if fields.length = 0 then none
  else encodedFieldsSize (1 + decimalDigits fields.length + 2) fields

/-- The loop of `write_decimal`, which fills the digits from the last. -/
def writeDecimalLoop : Nat → Nat → Bytes → Bytes
  | 0, _, output => output
  | i + 1, value, output =>
    writeDecimalLoop i (value / 10) (UInt8.ofNat (48 + value % 10) :: output)

def writeDecimal (value : Nat) : Bytes := writeDecimalLoop (decimalDigits value) value []

def encodeField (f : Bytes) : Bytes :=
  dollar :: writeDecimal f.length ++ [cr, lf] ++ f ++ [cr, lf]

/-- The bytes `kvs_encode_command` writes once the sizes are checked. -/
def encodeFields (fields : List Bytes) : Bytes :=
  asterisk :: writeDecimal fields.length ++ [cr, lf] ++ fields.flatMap encodeField

def kvsEncodeCommand (fields : List Bytes) (outputCapacity : Nat) : Option Bytes :=
  match kvsEncodedCommandSize fields with
  | none => none
  | some required => if outputCapacity < required then none else some (encodeFields fields)

def kvsEncodedValueResponseSize (value : Bytes) : Option Nat := encodedFieldSize value.length

def kvsEncodeValueResponse (value : Bytes) (outputCapacity : Nat) : Option Bytes :=
  match kvsEncodedValueResponseSize value with
  | none => none
  | some required => if outputCapacity < required then none else some (encodeField value)

-- ---------------------------------------------------------------------------
-- Identifying a connection
-- ---------------------------------------------------------------------------

inductive KvsConnectionKind
  | needMore
  | client
  | replica
  | invalid
  deriving DecidableEq, Repr

def handshake : Bytes := [80, 73, 78, 71, 13, 10]

def kvsIdentifyConnection (input : Bytes) : KvsConnectionKind :=
  match input with
  | [] => .needMore
  | b :: _ =>
    if b = asterisk then .client
    else
      let compareLength := min input.length handshake.length
      if input.take compareLength ≠ handshake.take compareLength then .invalid
      else if input.length < handshake.length then .needMore
      else .replica

end KvStore
