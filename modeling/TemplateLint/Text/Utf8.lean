/-!
# UTF-8

`decode` reads a byte sequence as text and names the first thing that is wrong with it. The first
byte of a sequence fixes how many bytes follow and, for some first bytes, a narrower interval for
the second: that alone rules out overlong forms, surrogates and code points beyond the last one.
-/

namespace TemplateLint.Text.Utf8

/-- What is wrong with bytes that are no text. -/
inductive Fault where
  /-- No sequence begins with this byte. -/
  | invalidStart
  /-- A sequence goes on with a byte that it cannot hold there. -/
  | invalidContinuation
  /-- The bytes end inside a sequence. -/
  | truncated
  deriving DecidableEq

/-- The wording of each fault. -/
def Fault.message : Fault → String
  | .invalidStart => "invalid start byte"
  | .invalidContinuation => "invalid continuation byte"
  | .truncated => "unexpected end of data"

/-- A sequence of which more bytes are to come. -/
structure Pending where
  /-- The bits of the code point read so far. -/
  value : Nat
  /-- The least byte that may come next. -/
  low : Nat
  /-- The greatest byte that may come next. -/
  high : Nat
  /-- How many bytes come after the next one. -/
  more : Nat

/-- The sequence that a byte of `0x80` or more begins. -/
def Pending.ofLead? (byte : Nat) : Option Pending :=
  if byte < 0xC2 then none
  else if byte ≤ 0xDF then some ⟨byte - 0xC0, 0x80, 0xBF, 0⟩
  else if byte = 0xE0 then some ⟨byte - 0xE0, 0xA0, 0xBF, 1⟩
  else if byte = 0xED then some ⟨byte - 0xE0, 0x80, 0x9F, 1⟩
  else if byte ≤ 0xEF then some ⟨byte - 0xE0, 0x80, 0xBF, 1⟩
  else if byte = 0xF0 then some ⟨byte - 0xF0, 0x90, 0xBF, 2⟩
  else if byte ≤ 0xF3 then some ⟨byte - 0xF0, 0x80, 0xBF, 2⟩
  else if byte = 0xF4 then some ⟨byte - 0xF0, 0x80, 0x8F, 2⟩
  else none

/-- The text of the bytes, which go on with the rest of `pending` if there is one. -/
def decodeFrom : Option Pending → List UInt8 → Except Fault (List Char)
  | none, [] => .ok []
  | some _, [] => .error .truncated
  | none, byte :: rest =>
    if byte.toNat < 0x80 then (decodeFrom none rest).map (Char.ofNat byte.toNat :: ·)
    else
      match Pending.ofLead? byte.toNat with
      | none => .error .invalidStart
      | some pending => decodeFrom (some pending) rest
  | some pending, byte :: rest =>
    if byte.toNat < pending.low ∨ pending.high < byte.toNat then .error .invalidContinuation
    else
      let value := pending.value * 64 + byte.toNat % 64
      match pending.more with
      | 0 => (decodeFrom none rest).map (Char.ofNat value :: ·)
      | more + 1 => decodeFrom (some ⟨value, 0x80, 0xBF, more⟩) rest

/-- The text that `bytes` encode. -/
def decode (bytes : List UInt8) : Except Fault (List Char) :=
  decodeFrom none bytes

/-- The bytes of a text. -/
def encode (text : List Char) : List UInt8 :=
  text.flatMap String.utf8EncodeChar

@[simp] theorem encode_nil : encode [] = [] := rfl

@[simp] theorem encode_cons (c : Char) (text : List Char) :
    encode (c :: text) = String.utf8EncodeChar c ++ encode text := rfl

/-- The bytes of two texts one after the other are the bytes of their concatenation. -/
@[simp] theorem encode_append (first second : List Char) :
    encode (first ++ second) = encode first ++ encode second := by
  simp [encode]

end TemplateLint.Text.Utf8
