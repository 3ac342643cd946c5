import TemplateLint.Proofs.Encoding

/-!
# What is wrong with bytes that are no text

Bytes that no text has are refused with one of three faults. `Utf8.decode` comes across them on its
way from byte to byte, but they can be told from the bytes as a whole:

* The bytes are **truncated** exactly if more bytes could make them those of a text
  (`Utf8.decode_eq_truncated_iff`). What has been begun can always be finished
  (`Utf8.exists_append_of_truncated`), and what is refused for another fault is refused whatever
  comes after it (`Utf8.decodeFrom_append_of_error`).
* They have an **invalid start** exactly if the longest text that they begin with is followed by a
  byte that begins no sequence (`Utf8.decode_eq_invalidStart_iff`).
* In all other cases a sequence goes on in a way that it cannot.

All of this is by induction along the bytes, with `Utf8.step` as what one byte does.
-/

namespace TemplateLint.Text.Utf8

variable {bytes rest : List UInt8} {byte : UInt8} {text read : List Char}
  {state next : Option Pending} {fault : Fault}

/-! ### One byte -/

/-- What one byte does: it is refused, or it gives the characters that it completes and what is
pending afterwards. -/
def step : Option Pending → UInt8 → Except Fault (List Char × Option Pending)
  | none, byte =>
    if byte.toNat < 0x80 then .ok ([Char.ofNat byte.toNat], none)
    else
      match Pending.ofLead? byte.toNat with
      | none => .error .invalidStart
      | some pending => .ok ([], some pending)
  | some pending, byte =>
    if byte.toNat < pending.low ∨ pending.high < byte.toNat then .error .invalidContinuation
    else
      let value := pending.value * 64 + byte.toNat % 64
      match pending.more with
      | 0 => .ok ([Char.ofNat value], none)
      | more + 1 => .ok ([], some ⟨value, 0x80, 0xBF, more⟩)

private theorem map_nil_append (result : Except Fault (List Char)) :
    result.map ([] ++ ·) = result := by
  cases result <;> rfl

private theorem decodeFrom_cons (state : Option Pending) (byte : UInt8) (rest : List UInt8) :
    decodeFrom state (byte :: rest) =
      match step state byte with
      | .error fault => .error fault
      | .ok (read, next) => (decodeFrom next rest).map (read ++ ·) := by
  fun_cases step state byte with
  | case1 byte hascii =>
    rw [decodeFrom, if_pos hascii]
    rfl
  | case2 byte hascii hlead => simp only [decodeFrom, hascii, hlead, if_false]
  | case3 byte hascii pending hlead =>
    simp only [decodeFrom, hascii, hlead, if_false]
    exact (map_nil_append _).symm
  | case4 byte pending hout => rw [decodeFrom, if_pos hout]
  | case5 byte pending hin value hmore =>
    simp only [decodeFrom, hin, hmore, if_false]
    rfl
  | case6 byte pending hin value more hmore =>
    simp only [decodeFrom, hin, hmore, if_false]
    exact (map_nil_append _).symm

private theorem decodeFrom_cons_of_error (h : step state byte = .error fault) :
    decodeFrom state (byte :: rest) = .error fault := by
  rw [decodeFrom_cons, h]

private theorem decodeFrom_cons_of_ok (h : step state byte = .ok (read, next)) :
    decodeFrom state (byte :: rest) = (decodeFrom next rest).map (read ++ ·) := by
  rw [decodeFrom_cons, h]

/-- Some byte can come next. -/
structure Pending.Open (pending : Pending) : Prop where
  low_ge : 0x80 ≤ pending.low
  low_le_high : pending.low ≤ pending.high
  high_le : pending.high ≤ 0xBF

/-- A sequence that has been begun, or gone on with, can be gone on with. -/
private theorem open_of_step {pending : Pending} (h : step state byte = .ok (read, some pending)) :
    pending.Open := by
  unfold step at h
  split at h
  · split at h
    · cases h
    · split at h
      · cases h
      · next hlead =>
        cases h
        obtain ⟨-, hlow, hhigh⟩ := Pending.range_of_ofLead? hlead
        refine ⟨hlow, ?_, hhigh⟩
        rcases Pending.ofLead?_eq_some_iff.mp hlead with
          ⟨-, -, rfl⟩ | ⟨-, -, rfl⟩ | ⟨-, -, rfl⟩
        all_goals grind
  · split at h
    · cases h
    · simp only at h
      split at h
      · cases h
      · cases h
        exact ⟨Nat.le_refl 0x80, by simp, Nat.le_refl 0xBF⟩

/-- A byte that begins no sequence. -/
def NoStart (byte : UInt8) : Prop :=
  0x80 ≤ byte.toNat ∧ byte.toNat ≤ 0xC1 ∨ 0xF5 ≤ byte.toNat

theorem noStart_iff :
    NoStart byte ↔ ¬ byte.toNat < 0x80 ∧ Pending.ofLead? byte.toNat = none := by
  have hbyte : byte.toNat < 256 := byte.toNat_lt
  unfold NoStart Pending.ofLead?
  grind

private theorem step_none_eq_error_iff :
    step none byte = .error fault ↔ NoStart byte ∧ fault = .invalidStart := by
  rw [noStart_iff, step]
  split
  · next hascii => simp [hascii]
  · next hascii =>
    split
    · next hlead => simp [hascii, hlead, eq_comm]
    · next hlead => simp [hlead]

private theorem step_some_eq_error {pending : Pending}
    (h : step (some pending) byte = .error fault) :
    fault = .invalidContinuation := by
  rw [step] at h
  split at h
  · exact (Except.error.inj h).symm
  · simp only at h
    split at h
    · cases h
    · cases h

/-! ### Going on -/

/-- What comes after a text is read as if it stood alone. -/
private theorem decodeFrom_append (h : decodeFrom state bytes = .ok text) (rest : List UInt8) :
    decodeFrom state (bytes ++ rest) = (decodeFrom none rest).map (text ++ ·) := by
  induction bytes generalizing state text with
  | nil =>
    cases state with
    | none =>
      cases h
      exact (map_nil_append _).symm
    | some pending => cases h
  | cons byte bytes ih =>
    cases hstep : step state byte with
    | error fault =>
      rw [decodeFrom_cons_of_error hstep] at h
      cases h
    | ok taken =>
      obtain ⟨read, next⟩ := taken
      rw [decodeFrom_cons_of_ok hstep] at h
      obtain ⟨later, hlater, rfl⟩ := map_eq_ok_iff.mp h
      rw [List.cons_append, decodeFrom_cons_of_ok hstep, ih hlater]
      cases decodeFrom none rest with
      | error fault => rfl
      | ok more => exact congrArg Except.ok (List.append_assoc read later more).symm

/-- What is refused for more than its end is refused whatever comes after it. -/
theorem decodeFrom_append_of_error (h : decodeFrom state bytes = .error fault)
    (hfault : fault ≠ .truncated) (rest : List UInt8) :
    decodeFrom state (bytes ++ rest) = .error fault := by
  induction bytes generalizing state with
  | nil =>
    cases state with
    | none => cases h
    | some pending => exact absurd (Except.error.inj h).symm hfault
  | cons byte bytes ih =>
    cases hstep : step state byte with
    | error refused =>
      rw [decodeFrom_cons_of_error hstep] at h
      rw [List.cons_append, decodeFrom_cons_of_error hstep, h]
    | ok taken =>
      obtain ⟨read, next⟩ := taken
      rw [decodeFrom_cons_of_ok hstep, map_eq_error_iff] at h
      rw [List.cons_append, decodeFrom_cons_of_ok hstep, ih h]
      rfl

/-- A sequence that can be gone on with can be finished. -/
private theorem Pending.Open.exists_decodeFrom {pending : Pending} (h : pending.Open) :
    ∃ bytes text, decodeFrom (some pending) bytes = .ok text := by
  obtain ⟨value, low, high, more⟩ := pending
  obtain ⟨hlow, hle, hhigh⟩ := h
  simp only at hlow hle hhigh
  -- the next byte is the least one, and zeros follow
  have hdiv : (value * 64 + (low - 0x80)) * 64 ^ more / 64 ^ more = value * 64 + (low - 0x80) :=
    Nat.mul_div_cancel _ (Nat.pow_pos (by decide))
  have hadmits : Admits ⟨value, low, high, more⟩ ((value * 64 + (low - 0x80)) * 64 ^ more) := by
    constructor
    · rw [Nat.pow_succ, ← Nat.div_div_eq_div_mul, hdiv]
      simp only
      omega
    · rw [hdiv]
      simp only
      omega
    · rw [hdiv]
      simp only
      omega
  exact ⟨_, _, (decodeFrom_pending_eq_ok_iff hlow hhigh).mpr
    ⟨_, [], [], hadmits, (List.append_nil _).symm, rfl, rfl⟩⟩

/-- What ends too early can be completed. -/
theorem exists_append_of_truncated (hstate : ∀ pending, state = some pending → pending.Open)
    (h : decodeFrom state bytes = .error .truncated) :
    ∃ rest text, decodeFrom state (bytes ++ rest) = .ok text := by
  induction bytes generalizing state with
  | nil =>
    cases state with
    | none => cases h
    | some pending => exact (hstate pending rfl).exists_decodeFrom
  | cons byte bytes ih =>
    cases hstep : step state byte with
    | error fault =>
      rw [decodeFrom_cons_of_error hstep] at h
      cases h
      -- a byte is never refused as the end of the bytes
      cases state with
      | none => simpa using step_none_eq_error_iff.mp hstep
      | some pending => simpa using step_some_eq_error hstep
    | ok taken =>
      obtain ⟨read, next⟩ := taken
      rw [decodeFrom_cons_of_ok hstep, map_eq_error_iff] at h
      have hnext : ∀ pending, next = some pending → pending.Open := by
        rintro pending rfl
        exact open_of_step hstep
      obtain ⟨rest, text, hrest⟩ := ih hnext h
      refine ⟨rest, read ++ text, ?_⟩
      rw [List.cons_append, decodeFrom_cons_of_ok hstep, hrest]
      rfl

/-- An invalid start stands behind a text. -/
private theorem exists_of_invalidStart (h : decodeFrom state bytes = .error .invalidStart) :
    ∃ before byte rest text, bytes = before ++ byte :: rest ∧
      decodeFrom state before = .ok text ∧ NoStart byte := by
  induction bytes generalizing state with
  | nil =>
    cases state with
    | none => cases h
    | some pending => cases h
  | cons byte bytes ih =>
    cases hstep : step state byte with
    | error fault =>
      rw [decodeFrom_cons_of_error hstep] at h
      cases h
      cases state with
      | none => exact ⟨[], byte, bytes, [], rfl, rfl, (step_none_eq_error_iff.mp hstep).1⟩
      | some pending => cases step_some_eq_error hstep
    | ok taken =>
      obtain ⟨read, next⟩ := taken
      rw [decodeFrom_cons_of_ok hstep, map_eq_error_iff] at h
      obtain ⟨before, bad, rest, text, rfl, hbefore, hbad⟩ := ih h
      refine ⟨byte :: before, bad, rest, read ++ text, rfl, ?_, hbad⟩
      rw [decodeFrom_cons_of_ok hstep, hbefore]
      rfl

/-! ### The faults told from the bytes -/

/-- Bytes that some text has. -/
def WellFormed (bytes : List UInt8) : Prop :=
  ∃ text, bytes = encode text

theorem wellFormed_iff : WellFormed bytes ↔ ∃ text, decode bytes = .ok text := by
  simp only [WellFormed, decode_eq_ok_iff]

/-- The longest text that bytes begin with. -/
structure LongestText (text : List Char) (bytes : List UInt8) : Prop where
  starts : encode text <+: bytes
  longest : ∀ other, encode other <+: bytes → (encode other).length ≤ (encode text).length

/-- **Bytes are truncated exactly if more bytes could make them those of a text.** -/
theorem decode_eq_truncated_iff (h : ¬ WellFormed bytes) :
    decode bytes = .error .truncated ↔ ∃ rest, WellFormed (bytes ++ rest) := by
  constructor
  · intro htruncated
    obtain ⟨rest, text, hrest⟩ := exists_append_of_truncated (by simp) htruncated
    exact ⟨rest, wellFormed_iff.mpr ⟨text, hrest⟩⟩
  · rintro ⟨rest, hrest⟩
    obtain ⟨text, htext⟩ := wellFormed_iff.mp hrest
    rw [wellFormed_iff, not_exists_eq_ok_iff] at h
    obtain ⟨fault, hfault⟩ := h
    by_contra hother
    have hne : fault ≠ .truncated := by
      rintro rfl
      exact hother hfault
    have herror := decodeFrom_append_of_error hfault hne rest
    cases htext.symm.trans herror

/-- Behind a text, a byte that begins no sequence is where reading ends. -/
private theorem decode_encode_append_noStart (text : List Char) (hbyte : NoStart byte)
    (rest : List UInt8) : decode (encode text ++ byte :: rest) = .error .invalidStart := by
  have hstart : decodeFrom none (byte :: rest) = .error .invalidStart :=
    decodeFrom_cons_of_error (step_none_eq_error_iff.mpr ⟨hbyte, rfl⟩)
  rw [decode, decodeFrom_append (decode_encode text), hstart]
  rfl

/-- A byte that begins no sequence ends the longest text. -/
private theorem longestText_of_noStart (text : List Char) (hbyte : NoStart byte)
    (rest : List UInt8) :
    LongestText text (encode text ++ byte :: rest) := by
  refine ⟨List.prefix_append _ _, fun other hother => Nat.le_of_not_lt fun hlonger => ?_⟩
  -- a longer text would go on with the byte
  have hmore : encode text ++ [byte] <+: encode other := by
    refine List.prefix_of_prefix_length_le ⟨rest, by simp⟩ hother ?_
    rw [List.length_append]
    exact hlonger
  obtain ⟨tail, htail⟩ := hmore
  have hother' := decode_encode other
  rw [← htail, List.append_assoc, List.singleton_append,
    decode_encode_append_noStart text hbyte] at hother'
  cases hother'

/-- **Bytes have an invalid start exactly if the longest text that they begin with is followed by a
byte that begins no sequence.** -/
theorem decode_eq_invalidStart_iff :
    decode bytes = .error .invalidStart ↔
      ∃ text byte rest, LongestText text bytes ∧ bytes = encode text ++ byte :: rest ∧
        NoStart byte := by
  constructor
  · intro h
    obtain ⟨before, byte, rest, text, rfl, hbefore, hbyte⟩ := exists_of_invalidStart h
    obtain rfl := eq_encode_of_decode hbefore
    exact ⟨text, byte, rest, longestText_of_noStart text hbyte rest, rfl, hbyte⟩
  · rintro ⟨text, byte, rest, -, rfl, hbyte⟩
    exact decode_encode_append_noStart text hbyte rest

end TemplateLint.Text.Utf8

/-! ### Templates -/

namespace TemplateLint.Files

open TemplateLint.Text

/-- **A file that holds the bytes of no text is refused with its path and the reason**: the bytes
end too early exactly if more bytes could make them those of a text, they have an invalid start
exactly if the longest text in front is followed by a byte that begins no sequence, and in every
other case a sequence goes on wrongly. -/
theorem loadTemplate_illFormed {fs : FileSystem} {path : Path} {bytes : List UInt8}
    (hfile : fs.resolve path = .ok (.file bytes)) (hbytes : ∀ text, bytes ≠ Utf8.encode text) :
    ∃ error reason, loadTemplate fs path = .error (.unreadable error) ∧ error.path = path ∧
      error.fault.message = "not valid UTF-8 (" ++ reason ++ ")" ∧
      (reason = "unexpected end of data" ↔ ∃ rest text, bytes ++ rest = Utf8.encode text) ∧
      (reason = "invalid start byte" ↔
        ∃ text byte rest, Utf8.LongestText text bytes ∧ bytes = Utf8.encode text ++ byte :: rest ∧
          (0x80 ≤ byte.toNat ∧ byte.toNat ≤ 0xC1 ∨ 0xF5 ≤ byte.toNat)) ∧
      (reason = "invalid continuation byte" ↔
        (¬ ∃ rest text, bytes ++ rest = Utf8.encode text) ∧
        ¬ ∃ text byte rest, Utf8.LongestText text bytes ∧ bytes = Utf8.encode text ++ byte :: rest ∧
          (0x80 ≤ byte.toNat ∧ byte.toNat ≤ 0xC1 ∨ 0xF5 ≤ byte.toNat)) := by
  have hill : ¬ Utf8.WellFormed bytes := fun ⟨text, htext⟩ => hbytes text htext
  obtain ⟨fault, hfault⟩ := not_exists_eq_ok_iff.mp (mt Utf8.wellFormed_iff.mpr hill)
  have htruncated := Utf8.decode_eq_truncated_iff hill
  have hstart := @Utf8.decode_eq_invalidStart_iff bytes
  rw [hfault, Except.error.injEq] at htruncated hstart
  refine ⟨⟨path, .notText fault⟩, fault.message, ?_, rfl, rfl, ?_⟩
  · rw [loadTemplate_eq hfile, hfault]
  · -- the two conditions tell two of the faults, and the third is left
    unfold Utf8.WellFormed at htruncated
    unfold Utf8.NoStart at hstart
    rw [← htruncated, ← hstart]
    cases fault <;> decide

/-- The first two bytes of a surrogate are refused as they stand, not for what is missing: nothing
could complete them. -/
theorem loadTemplate_illFormed_surrogate :
    let path : Path := ⟨.here, ["index.html"]⟩
    let bytes := [0x7B, 0xED, 0xA0]
    let fs := FileSystem.blank.addFile path bytes
    fs.resolve path = .ok (.file bytes) ∧ (∀ text, bytes ≠ Utf8.encode text) ∧
      loadTemplate fs path = .error (.unreadable ⟨path, .notText .invalidContinuation⟩) ∧
      ¬ ∃ rest text, bytes ++ rest = Utf8.encode text := by
  intro path bytes fs
  have hfile : fs.resolve path = .ok (.file bytes) := by
    rw [FileSystem.resolve, if_neg (by decide +kernel), if_neg (by decide +kernel)]
    rfl
  have hfault : Utf8.decode bytes = .error .invalidContinuation := by rfl
  have hbytes : ∀ text, bytes ≠ Utf8.encode text := by
    intro text htext
    rw [htext, Utf8.decode_encode] at hfault
    cases hfault
  have hload : loadTemplate fs path =
      .error (.unreadable ⟨path, .notText .invalidContinuation⟩) := by
    rw [loadTemplate_eq hfile, hfault]
  obtain ⟨error, reason, herror, -, hreason, hend, -, -⟩ := loadTemplate_illFormed hfile hbytes
  refine ⟨hfile, hbytes, hload, ?_⟩
  rw [hload] at herror
  cases herror
  rw [← hend]
  rintro rfl
  exact absurd hreason (by decide +kernel)

end TemplateLint.Files
