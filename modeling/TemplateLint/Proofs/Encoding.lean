import Mathlib.Algebra.Group.Nat.Defs
import TemplateLint.Files.Template
import TemplateLint.Proofs.Failures

/-!
# Texts and their bytes

A template is stored as bytes, and loading it gives back the text whose bytes they are. The two
sides are independent: `Utf8.encode` writes a character as its bit groups say, in one to four bytes,
while `Utf8.decode` goes byte by byte and refuses what no text has, by narrower intervals for the
second byte after some first bytes. `Utf8.decode_eq_ok_iff` says that exactly the bytes of texts can
be read, and that reading gives the text back; `Files.loadTemplate_file` is the same for a template,
with the one byte-order mark that may be in front.

Inside a sequence, the decoder is described by the code points that the sequence can still become:
`Pending.Admits`. Each byte narrows them down to those that have it (`Pending.admits_and_iff`), so
going on with a sequence succeeds exactly on the bytes that are left of an admitted code point
(`decodeFrom_pending_eq_ok_iff`). What remains is that the first bytes admit all characters and
nothing but characters (`exists_ofLead?_of_char`, `utf8EncodeChar_of_admits`): surrogates, overlong
forms and numbers beyond the last code point are excluded there and nowhere else.
-/

namespace TemplateLint.Text.Utf8

variable {bytes rest : List UInt8} {text later : List Char}

/-! ### Sequences -/

/-- The last `count` sextets of a code point, each as a continuation byte. -/
def continuation : (count n : Nat) → List UInt8
  | 0, _ => []
  | count + 1, n => UInt8.ofNat (0x80 + n / 64 ^ count % 64) :: continuation count n

private theorem eq_ofNat_iff {byte : UInt8} {n : Nat} (h : n < 256) :
    byte = UInt8.ofNat n ↔ byte.toNat = n := by
  rw [← UInt8.toNat_inj, UInt8.toNat_ofNat', Nat.mod_eq_of_lt h]

private theorem toNat_ofNat {n : Nat} (hvalid : n < 0xD800 ∨ 0xDFFF < n ∧ n < 0x110000) :
    (Char.ofNat n).toNat = n := by
  rw [Char.ofNat, dif_pos hvalid]
  rfl

namespace Pending

/-- The code points that a sequence can still become. -/
structure Admits (pending : Pending) (n : Nat) : Prop where
  value_eq : n / 64 ^ (pending.more + 1) = pending.value
  low_le : pending.low ≤ 0x80 + n / 64 ^ pending.more % 64
  le_high : 0x80 + n / 64 ^ pending.more % 64 ≤ pending.high

/-- The next byte of a sequence narrows down the code points that it can still become. -/
theorem admits_and_iff {pending : Pending} (hlow : 0x80 ≤ pending.low)
    (hhigh : pending.high ≤ 0xBF) {byte : UInt8} {n : Nat} :
    (pending.Admits n ∧ byte = UInt8.ofNat (0x80 + n / 64 ^ pending.more % 64)) ↔
      (pending.low ≤ byte.toNat ∧ byte.toNat ≤ pending.high) ∧
        n / 64 ^ pending.more = pending.value * 64 + byte.toNat % 64 := by
  have hdiv : n / 64 ^ (pending.more + 1) = n / 64 ^ pending.more / 64 := by
    rw [Nat.div_div_eq_div_mul, Nat.pow_succ]
  rw [eq_ofNat_iff (by omega)]
  constructor
  · rintro ⟨⟨hvalue, hle, hge⟩, hbyte⟩
    omega
  · rintro ⟨⟨hle, hge⟩, hvalue⟩
    exact ⟨⟨by omega, by omega, by omega⟩, by omega⟩

/-- After the second byte of a sequence any continuation byte may come. -/
theorem admits_iff {value more n : Nat} :
    Admits ⟨value, 0x80, 0xBF, more⟩ n ↔ n / 64 ^ (more + 1) = value :=
  ⟨Admits.value_eq, fun h => ⟨h, by simp, by simp only; omega⟩⟩

end Pending

private theorem decodeFrom_pending_cons_eq_ok_iff {pending : Pending} {byte : UInt8} :
    decodeFrom (some pending) (byte :: rest) = .ok text ↔
      (pending.low ≤ byte.toNat ∧ byte.toNat ≤ pending.high) ∧
        match pending.more with
        | 0 => ∃ later, decodeFrom none rest = .ok later ∧
            Char.ofNat (pending.value * 64 + byte.toNat % 64) :: later = text
        | more + 1 => decodeFrom
            (some ⟨pending.value * 64 + byte.toNat % 64, 0x80, 0xBF, more⟩) rest = .ok text := by
  rw [decodeFrom]
  split
  · next hout =>
    have hrange : ¬ (pending.low ≤ byte.toNat ∧ byte.toNat ≤ pending.high) := by omega
    simp [hrange]
  · next hin =>
    have hrange : pending.low ≤ byte.toNat ∧ byte.toNat ≤ pending.high := by omega
    simp only [hrange, and_self, true_and]
    cases pending.more with
    | zero => exact map_eq_ok_iff
    | succ more => rfl

/-- Going on with a sequence succeeds exactly on the continuation bytes of a code point that it
admits, with the text of the bytes after them. -/
theorem decodeFrom_pending_eq_ok_iff {pending : Pending} (hlow : 0x80 ≤ pending.low)
    (hhigh : pending.high ≤ 0xBF) :
    decodeFrom (some pending) bytes = .ok text ↔
      ∃ n rest later, pending.Admits n ∧ bytes = continuation (pending.more + 1) n ++ rest ∧
        decodeFrom none rest = .ok later ∧ Char.ofNat n :: later = text := by
  obtain ⟨value, low, high, more⟩ := pending
  induction more generalizing value low high bytes with
  | zero =>
    cases bytes with
    | nil => simp [decodeFrom, continuation]
    | cons byte tail =>
      simp only [decodeFrom_pending_cons_eq_ok_iff, continuation, List.cons_append, List.cons.injEq,
        List.nil_append]
      constructor
      · rintro ⟨hrange, later, hlater, rfl⟩
        have hadmits := (Pending.admits_and_iff (n := value * 64 + byte.toNat % 64) hlow hhigh).mpr
          ⟨hrange, by simp⟩
        exact ⟨_, tail, later, hadmits.1, ⟨hadmits.2, rfl⟩, hlater, rfl⟩
      · rintro ⟨n, rest, later, hadmits, ⟨hbyte, rfl⟩, hlater, rfl⟩
        obtain ⟨hrange, hn⟩ := (Pending.admits_and_iff hlow hhigh).mp ⟨hadmits, hbyte⟩
        refine ⟨hrange, later, hlater, ?_⟩
        simp only [Nat.pow_zero, Nat.div_one] at hn
        rw [hn]
  | succ more ih =>
    cases bytes with
    | nil => simp [decodeFrom, continuation]
    | cons byte tail =>
      -- what is left of the sequence has the bits of this byte, and no restriction any more
      have ih := @ih tail (value * 64 + byte.toNat % 64) 0x80 0xBF (by simp) (by simp)
      simp only [Pending.admits_iff] at ih
      rw [decodeFrom_pending_cons_eq_ok_iff]
      simp only [ih, continuation, List.cons_append, List.cons.injEq]
      constructor
      · rintro ⟨hrange, n, rest, later, hn, htail, hlater⟩
        have hadmits := (Pending.admits_and_iff hlow hhigh).mpr ⟨hrange, hn⟩
        exact ⟨n, rest, later, hadmits.1, ⟨hadmits.2, htail⟩, hlater⟩
      · rintro ⟨n, rest, later, hadmits, ⟨hbyte, htail⟩, hlater⟩
        obtain ⟨hrange, hn⟩ := (Pending.admits_and_iff hlow hhigh).mp ⟨hadmits, hbyte⟩
        exact ⟨hrange, n, rest, later, hn, htail, hlater⟩

/-! ### First bytes -/

/-- The bytes of a character: its lowest sextets follow a first byte that holds the rest. -/
theorem utf8EncodeChar_eq (c : Char) :
    String.utf8EncodeChar c =
      if c.toNat ≤ 0x7F then [UInt8.ofNat c.toNat]
      else if c.toNat ≤ 0x7FF then UInt8.ofNat (0xC0 + c.toNat / 64) :: continuation 1 c.toNat
      else if c.toNat ≤ 0xFFFF then UInt8.ofNat (0xE0 + c.toNat / 4096) :: continuation 2 c.toNat
      else UInt8.ofNat (0xF0 + c.toNat / 262144) :: continuation 3 c.toNat := by
  have hvalid : c.toNat < 0xD800 ∨ 0xDFFF < c.toNat ∧ c.toNat < 0x110000 := c.valid
  unfold String.utf8EncodeChar
  simp only [Char.toNat_val, continuation, Nat.reducePow, Nat.div_one, Nat.add_comm]
  generalize c.toNat = n at hvalid
  -- what is left of the code point fits into the first byte
  have htwo : n ≤ 0x7FF → n / 64 % 32 = n / 64 := fun h => by omega
  have hthree : n ≤ 0xFFFF → n / 4096 % 16 = n / 4096 := fun h => by omega
  have hfour : n / 262144 % 8 = n / 262144 := by omega
  split_ifs with _ h2 h3
  · rfl
  · rw [htwo h2]
  · rw [hthree h3]
  · rw [hfour]

/-- The first bytes of sequences of two, three and four bytes. Where the first byte has the least or
the greatest value of its kind, or would begin a surrogate, the second byte is restricted. -/
theorem Pending.ofLead?_eq_some_iff {byte : Nat} {pending : Pending} :
    ofLead? byte = some pending ↔
      (0xC2 ≤ byte ∧ byte ≤ 0xDF ∧ pending = ⟨byte - 0xC0, 0x80, 0xBF, 0⟩) ∨
      (0xE0 ≤ byte ∧ byte ≤ 0xEF ∧ pending = ⟨byte - 0xE0, if byte = 0xE0 then 0xA0 else 0x80,
        if byte = 0xED then 0x9F else 0xBF, 1⟩) ∨
      (0xF0 ≤ byte ∧ byte ≤ 0xF4 ∧ pending = ⟨byte - 0xF0, if byte = 0xF0 then 0x90 else 0x80,
        if byte = 0xF4 then 0x8F else 0xBF, 2⟩) := by
  unfold ofLead?
  grind

/-- Every character beyond the first `0x80` is a first byte followed by continuation bytes of a code
point that the first byte admits. -/
theorem exists_ofLead?_of_char {c : Char} (h : 0x7F < c.toNat) :
    ∃ byte pending, Pending.ofLead? byte.toNat = some pending ∧ pending.Admits c.toNat ∧
      String.utf8EncodeChar c = byte :: continuation (pending.more + 1) c.toNat := by
  have hvalid : c.toNat < 0xD800 ∨ 0xDFFF < c.toNat ∧ c.toNat < 0x110000 := c.valid
  have hbyte : ∀ m < 256, (UInt8.ofNat m).toNat = m := fun m hm => by
    rw [UInt8.toNat_ofNat', Nat.mod_eq_of_lt hm]
  rw [utf8EncodeChar_eq, if_neg (by omega)]
  generalize c.toNat = n at h hvalid
  simp only [Pending.ofLead?_eq_some_iff]
  split_ifs with htwo hthree
  · refine ⟨_, _, .inl ⟨?_, ?_, rfl⟩, ⟨?_, ?_, ?_⟩, rfl⟩
    all_goals simp only [hbyte (0xC0 + n / 64) (by omega), Nat.reducePow, Nat.reduceAdd]
    all_goals omega
  · refine ⟨_, _, .inr (.inl ⟨?_, ?_, rfl⟩), ⟨?_, ?_, ?_⟩, rfl⟩
    all_goals simp only [hbyte (0xE0 + n / 4096) (by omega), Nat.reducePow, Nat.reduceAdd]
    all_goals grind
  · refine ⟨_, _, .inr (.inr ⟨?_, ?_, rfl⟩), ⟨?_, ?_, ?_⟩, rfl⟩
    all_goals simp only [hbyte (0xF0 + n / 262144) (by omega), Nat.reducePow, Nat.reduceAdd]
    all_goals grind

/-- A code point that a first byte admits is that of a character, and the first byte is its own. -/
theorem utf8EncodeChar_of_admits {byte : UInt8} {pending : Pending}
    (h : Pending.ofLead? byte.toNat = some pending) {n : Nat} (hn : pending.Admits n) :
    String.utf8EncodeChar (Char.ofNat n) = byte :: continuation (pending.more + 1) n := by
  obtain ⟨hvalue, hlow, hhigh⟩ := hn
  rcases Pending.ofLead?_eq_some_iff.mp h with
    ⟨hmin, hmax, rfl⟩ | ⟨hmin, hmax, rfl⟩ | ⟨hmin, hmax, rfl⟩
  all_goals simp only [Nat.reducePow, Nat.reduceAdd, Nat.div_one] at hvalue hlow hhigh
  · have hbyte : byte.toNat = 0xC0 + n / 64 := by omega
    rw [utf8EncodeChar_eq, toNat_ofNat (by omega), if_neg (by omega), if_pos (by omega), ← hbyte,
      UInt8.ofNat_toNat]
  · have hrange : 0x7FF < n ∧ (n < 0xD800 ∨ 0xDFFF < n ∧ n ≤ 0xFFFF) := by grind
    have hbyte : byte.toNat = 0xE0 + n / 4096 := by omega
    rw [utf8EncodeChar_eq, toNat_ofNat (by omega), if_neg (by omega), if_neg (by omega),
      if_pos (by omega), ← hbyte, UInt8.ofNat_toNat]
  · have hrange : 0xFFFF < n ∧ n < 0x110000 := by grind
    have hbyte : byte.toNat = 0xF0 + n / 262144 := by omega
    rw [utf8EncodeChar_eq, toNat_ofNat (by omega), if_neg (by omega), if_neg (by omega),
      if_neg (by omega), ← hbyte, UInt8.ofNat_toNat]

theorem Pending.range_of_ofLead? {byte : Nat} {pending : Pending}
    (h : ofLead? byte = some pending) :
    0x80 ≤ byte ∧ 0x80 ≤ pending.low ∧ pending.high ≤ 0xBF := by
  rcases ofLead?_eq_some_iff.mp h with
    ⟨hmin, hmax, rfl⟩ | ⟨hmin, hmax, rfl⟩ | ⟨hmin, hmax, rfl⟩
  all_goals grind

/-! ### Characters and texts -/

/-- The bytes of a character are read as this character. -/
private theorem decodeFrom_utf8EncodeChar_append (c : Char) (h : decodeFrom none rest = .ok later) :
    decodeFrom none (String.utf8EncodeChar c ++ rest) = .ok (c :: later) := by
  by_cases hascii : c.toNat ≤ 0x7F
  · have hbyte : (UInt8.ofNat c.toNat).toNat = c.toNat := by
      rw [UInt8.toNat_ofNat', Nat.mod_eq_of_lt (by omega)]
    rw [utf8EncodeChar_eq, if_pos hascii, List.singleton_append, decodeFrom, hbyte,
      if_pos (by omega), h, Char.ofNat_toNat]
    rfl
  · obtain ⟨byte, pending, hlead, hadmits, hbytes⟩ :=
      exists_ofLead?_of_char (Nat.lt_of_not_le hascii)
    obtain ⟨hbyte, hlow, hhigh⟩ := Pending.range_of_ofLead? hlead
    rw [hbytes, List.cons_append, decodeFrom, if_neg (by omega), hlead]
    exact (decodeFrom_pending_eq_ok_iff hlow hhigh).mpr
      ⟨c.toNat, rest, later, hadmits, rfl, h, by rw [Char.ofNat_toNat]⟩

/-- Bytes that can be read begin with those of the first character that is read. -/
private theorem exists_utf8EncodeChar_of_decodeFrom {byte : UInt8}
    (h : decodeFrom none (byte :: bytes) = .ok text) :
    ∃ c rest later, byte :: bytes = String.utf8EncodeChar c ++ rest ∧
      decodeFrom none rest = .ok later ∧ c :: later = text := by
  rw [decodeFrom] at h
  split at h
  · next hascii =>
    obtain ⟨later, hlater, rfl⟩ := map_eq_ok_iff.mp h
    refine ⟨Char.ofNat byte.toNat, bytes, later, ?_, hlater, rfl⟩
    rw [utf8EncodeChar_eq, toNat_ofNat (by omega), if_pos (by omega), UInt8.ofNat_toNat,
      List.singleton_append]
  · split at h
    · simp at h
    · next pending hlead =>
      obtain ⟨-, hlow, hhigh⟩ := Pending.range_of_ofLead? hlead
      obtain ⟨n, rest, later, hadmits, rfl, hlater, rfl⟩ :=
        (decodeFrom_pending_eq_ok_iff hlow hhigh).mp h
      refine ⟨Char.ofNat n, rest, later, ?_, hlater, rfl⟩
      rw [utf8EncodeChar_of_admits hlead hadmits, List.cons_append]

theorem decode_encode (text : List Char) : decode (encode text) = .ok text := by
  induction text with
  | nil => rfl
  | cons c text ih => exact decodeFrom_utf8EncodeChar_append c ih

theorem eq_encode_of_decode (h : decode bytes = .ok text) : bytes = encode text := by
  induction text generalizing bytes with
  | nil =>
    cases bytes with
    | nil => rfl
    | cons byte bytes =>
      obtain ⟨_, _, _, _, _, htext⟩ := exists_utf8EncodeChar_of_decodeFrom h
      simp at htext
  | cons c text ih =>
    cases bytes with
    | nil => simp [decode, decodeFrom] at h
    | cons byte bytes =>
      obtain ⟨c', rest, later, hbytes, hlater, htext⟩ := exists_utf8EncodeChar_of_decodeFrom h
      obtain ⟨rfl, rfl⟩ := List.cons.inj htext
      rw [hbytes, ih hlater, encode_cons]

/-- **Exactly the bytes of texts can be read**, and reading gives the text back. -/
theorem decode_eq_ok_iff : decode bytes = .ok text ↔ bytes = encode text := by
  constructor
  · exact eq_encode_of_decode
  · rintro rfl
    exact decode_encode text

end TemplateLint.Text.Utf8

/-! ### Templates -/

namespace TemplateLint.Files

open TemplateLint.Text

theorem dropByteOrderMark_eq (text : List Char) :
    dropByteOrderMark text = if text.head? = some '\uFEFF' then text.tail else text := by
  cases text with
  | nil => rfl
  | cons c text =>
    have hmark : c = '\uFEFF' ↔ c.toNat = 0xFEFF := Char.toNat_inj.symm
    simp only [dropByteOrderMark, List.head?_cons, Option.some.injEq, hmark, List.tail_cons]

/-- A text is what is left of it, or a byte-order mark and what is left of it. -/
private theorem eq_or_eq_cons_dropByteOrderMark (text : List Char) :
    text = dropByteOrderMark text ∨ text = '\uFEFF' :: dropByteOrderMark text := by
  rw [dropByteOrderMark_eq]
  split
  · next hmark => exact .inr (List.cons_head?_tail hmark).symm
  · exact .inl rfl

theorem loadTemplate_eq {fs : FileSystem} {path : Path} {bytes : List UInt8}
    (hfile : fs.resolve path = .ok (.file bytes)) :
    loadTemplate fs path =
      match Utf8.decode bytes with
      | .ok text => .ok (dropByteOrderMark text)
      | .error fault => .error (.unreadable ⟨path, .notText fault⟩) := by
  rw [loadTemplate, hfile]
  simp only [decodeTemplate]
  cases Utf8.decode bytes <;> rfl

/-- **Loading gives back the text whose bytes a file holds**, without the byte-order mark that it
may begin with, and refuses exactly the files that hold the bytes of no text. -/
theorem loadTemplate_file {fs : FileSystem} {path : Path} {bytes : List UInt8}
    (hfile : fs.resolve path = .ok (.file bytes)) :
    (∀ text, bytes = Utf8.encode text →
      loadTemplate fs path = .ok (if text.head? = some '\uFEFF' then text.tail else text)) ∧
    ((∃ text, loadTemplate fs path = .ok text ∧
        (bytes = Utf8.encode text ∨ bytes = Utf8.encode ('\uFEFF' :: text))) ∨
      ∃ fault, loadTemplate fs path = .error (.unreadable ⟨path, .notText fault⟩) ∧
        ∀ text, bytes ≠ Utf8.encode text) := by
  rw [loadTemplate_eq hfile]
  constructor
  · intro text hbytes
    rw [Utf8.decode_eq_ok_iff.mpr hbytes, ← dropByteOrderMark_eq]
  · cases hdecode : Utf8.decode bytes with
    | ok text =>
      refine .inl ⟨dropByteOrderMark text, rfl, ?_⟩
      obtain rfl := Utf8.decode_eq_ok_iff.mp hdecode
      rcases eq_or_eq_cons_dropByteOrderMark text with htext | htext
      · exact .inl (congrArg _ htext)
      · exact .inr (congrArg _ htext)
    | error fault =>
      refine .inr ⟨fault, rfl, fun text hbytes => ?_⟩
      rw [Utf8.decode_eq_ok_iff.mpr hbytes] at hdecode
      cases hdecode

/-- Of two byte-order marks the second is kept, and so is the line end after it. -/
theorem loadTemplate_file_twoMarks :
    let path : Path := ⟨.here, ["index.html"]⟩
    let bytes := [0xEF, 0xBB, 0xBF, 0xEF, 0xBB, 0xBF, 0x0D, 0x0A]
    let fs := FileSystem.blank.addFile path bytes
    fs.resolve path = .ok (.file bytes) ∧ bytes = Utf8.encode ['\uFEFF', '\uFEFF', '\r', '\n'] ∧
      loadTemplate fs path = .ok ['\uFEFF', '\r', '\n'] := by
  intro path bytes fs
  have hfile : fs.resolve path = .ok (.file bytes) := by
    rw [FileSystem.resolve, if_neg (by decide +kernel), if_neg (by decide +kernel)]
    rfl
  have hbytes : bytes = Utf8.encode ['\uFEFF', '\uFEFF', '\r', '\n'] := by decide +kernel
  exact ⟨hfile, hbytes, (loadTemplate_file hfile).1 _ hbytes⟩

end TemplateLint.Files
