import HartLink.Operation.Codec
import Mathlib.Data.List.DropRight

/-!
# Packed text

Text fields carry characters between `0x20` and `0x5f` as six-bit codes, four
of them in three bytes.  `unpackText_packText` says that unpacking returns the
packed text without its trailing spaces, `packText_unpackText` that packing
returns the bytes.  The record of Commands 13 and 18 has two such fields.
-/

namespace HartLink.Operation

open HartLink.Foundation
open HartLink.Wire

/-! ## Trimming -/

/-- The characters with the Unicode property `White_Space`. -/
def isWhitespace (character : Char) : Bool :=
  let code := character.toNat
  (9 ≤ code && code ≤ 13) || code == 0x20 || code == 0x85 || code == 0xa0 ||
    code == 0x1680 || (0x2000 ≤ code && code ≤ 0x200a) || code == 0x2028 ||
    code == 0x2029 || code == 0x202f || code == 0x205f || code == 0x3000

def trimEnd (text : List Char) : List Char := text.rdropWhile isWhitespace

/-! ## Packing -/

def packCodes (capacity : Nat) :
    List Char → Bytes → Except CodecError Bytes
  | [], codes => .ok codes
  | character :: text, codes =>
      let code := character.toNat
      if ¬(0x20 ≤ code ∧ code ≤ 0x5f) ∨ codes.length = capacity then
        .error (.operation (.invalidValue "packed-text character"))
      else packCodes capacity text (codes ++ [UInt8.ofNat code &&& 0x3f])

def packGroups : Bytes → Bytes
  | c0 :: c1 :: c2 :: c3 :: rest =>
      ((c0 <<< 2) ||| (c1 >>> 4)) :: ((c1 <<< 4) ||| (c2 >>> 2)) ::
        ((c2 <<< 6) ||| c3) :: packGroups rest
  | _ => []

def packText (text : String) (outputBytes : Nat) :
    Except CodecError Bytes :=
  if outputBytes > 255 ∨ outputBytes % 3 ≠ 0 then
    .error (.operation (.invalidValue "packed-text length"))
  else
    let capacity := outputBytes / 3 * 4
    (packCodes capacity text.toList []).map fun codes =>
      packGroups (codes ++ List.replicate (capacity - codes.length) 0x20)

/-! ## Unpacking -/

def unpackCodes : Bytes → Bytes
  | b0 :: b1 :: b2 :: rest =>
      (b0 >>> 2) :: (((b0 &&& 0x03) <<< 4) ||| (b1 >>> 4)) ::
        (((b1 &&& 0x0f) <<< 2) ||| (b2 >>> 6)) :: (b2 &&& 0x3f) ::
        unpackCodes rest
  | _ => []

def unpackChar (code : UInt8) : Char :=
  Char.ofNat (if code &&& 0x20 = 0 then code ||| 0x40 else code).toNat

def unpackText (bytes : Bytes) : String :=
  String.ofList (trimEnd ((unpackCodes bytes).map unpackChar))

/-! ## Codes -/

def SixBit (codes : Bytes) : Prop := ∀ code ∈ codes, code < 0x40

/-- Two bit fields beside each other; high bits are shifted out. -/
theorem toNat_or_shiftLeft (high low : UInt8) {shift : Nat}
    (hshift : shift < 8) (hlow : low.toNat < 2 ^ shift) :
    ((high <<< UInt8.ofNat shift) ||| low).toNat =
      high.toNat % 2 ^ (8 - shift) * 2 ^ shift + low.toNat := by
  have hamount : (UInt8.ofNat shift).toNat % 8 = shift := by
    rw [UInt8.toNat_ofNat']
    omega
  have hbyte : 2 ^ 8 = 2 ^ (8 - shift) * 2 ^ shift := by
    rw [← Nat.pow_add, Nat.sub_add_cancel hshift.le]
  rw [UInt8.toNat_or, UInt8.toNat_shiftLeft, hamount, Nat.shiftLeft_eq, hbyte,
    Nat.mul_mod_mul_right, ← Nat.shiftLeft_eq,
    ← Nat.shiftLeft_add_eq_or_of_lt hlow]

theorem toNat_and_mask (byte : UInt8) {width : Nat} (h : width ≤ 8) :
    (byte &&& UInt8.ofNat (2 ^ width - 1)).toNat = byte.toNat % 2 ^ width := by
  have hlt : 2 ^ width - 1 < 256 := by
    have := Nat.pow_le_pow_right (show 0 < 2 by decide) h
    omega
  rw [UInt8.toNat_and, UInt8.toNat_ofNat', Nat.mod_eq_of_lt hlt,
    Nat.and_two_pow_sub_one_eq_mod]

theorem toNat_shiftRight (byte : UInt8) {shift : Nat} (h : shift < 8) :
    (byte >>> UInt8.ofNat shift).toNat = byte.toNat / 2 ^ shift := by
  have hamount : (UInt8.ofNat shift).toNat % 8 = shift := by
    rw [UInt8.toNat_ofNat']
    omega
  rw [UInt8.toNat_shiftRight, hamount, Nat.shiftRight_eq_div_pow]

/-- The codes of three bytes, as numbers. -/
theorem toNat_unpackCodes (b0 b1 b2 : UInt8) :
    (b0 >>> 2).toNat = b0.toNat / 4 ∧
      (((b0 &&& 0x03) <<< 4) ||| (b1 >>> 4)).toNat =
        b0.toNat % 4 * 16 + b1.toNat / 16 ∧
      (((b1 &&& 0x0f) <<< 2) ||| (b2 >>> 6)).toNat =
        b1.toNat % 16 * 4 + b2.toNat / 64 ∧
      (b2 &&& 0x3f).toNat = b2.toNat % 64 := by
  have h1 := b1.toNat_lt
  have h2 := b2.toNat_lt
  have hlow : (b0 &&& 0x03).toNat = b0.toNat % 4 :=
    toNat_and_mask b0 (show 2 ≤ 8 by decide)
  have hmiddle : (b1 &&& 0x0f).toNat = b1.toNat % 16 :=
    toNat_and_mask b1 (show 4 ≤ 8 by decide)
  have hnext : (b1 >>> 4).toNat = b1.toNat / 16 :=
    toNat_shiftRight b1 (show 4 < 8 by decide)
  have hlast : (b2 >>> 6).toNat = b2.toNat / 64 :=
    toNat_shiftRight b2 (show 6 < 8 by decide)
  refine ⟨toNat_shiftRight b0 (show 2 < 8 by decide), ?_, ?_,
    toNat_and_mask b2 (show 6 ≤ 8 by decide)⟩
  · have hjoin := toNat_or_shiftLeft (b0 &&& 0x03) (b1 >>> 4)
      (show 4 < 8 by decide) (by omega)
    rw [hlow, hnext, Nat.mod_eq_of_lt
      (show b0.toNat % 4 < 2 ^ (8 - 4) by
        change _ < 16
        omega)] at hjoin
    exact hjoin
  · have hjoin := toNat_or_shiftLeft (b1 &&& 0x0f) (b2 >>> 6)
      (show 2 < 8 by decide) (by omega)
    rw [hmiddle, hlast, Nat.mod_eq_of_lt
      (show b1.toNat % 16 < 2 ^ (8 - 2) by
        change _ < 64
        omega)] at hjoin
    exact hjoin

theorem sixBit_unpackCodes (bytes : Bytes) : SixBit (unpackCodes bytes) := by
  induction bytes using unpackCodes.induct with
  | case1 b0 b1 b2 rest ih =>
      have hb0 := b0.toNat_lt
      have hb1 := b1.toNat_lt
      have hb2 := b2.toNat_lt
      obtain ⟨h0, h1, h2, h3⟩ := toNat_unpackCodes b0 b1 b2
      simp only [SixBit, unpackCodes, List.forall_mem_cons,
        UInt8.lt_iff_toNat_lt, h0, h1, h2, h3]
      refine ⟨?_, ?_, ?_, ?_, fun code hcode =>
        UInt8.lt_iff_toNat_lt.mp (ih code hcode)⟩
      all_goals
        change _ < 64
        omega
  | case2 bytes h =>
      rw [unpackCodes]
      · simp [SixBit]
      · exact h

/-- The bytes of four codes, as numbers. -/
theorem toNat_packGroups (c0 : UInt8) {c1 c2 c3 : UInt8} (h1 : c1.toNat < 64)
    (h2 : c2.toNat < 64) (h3 : c3.toNat < 64) :
    ((c0 <<< 2) ||| (c1 >>> 4)).toNat =
        c0.toNat % 64 * 4 + c1.toNat / 16 ∧
      ((c1 <<< 4) ||| (c2 >>> 2)).toNat =
        c1.toNat % 16 * 16 + c2.toNat / 4 ∧
      ((c2 <<< 6) ||| c3).toNat = c2.toNat % 4 * 64 + c3.toNat := by
  have hfirst : (c1 >>> 4).toNat = c1.toNat / 16 :=
    toNat_shiftRight c1 (show 4 < 8 by decide)
  have hsecond : (c2 >>> 2).toNat = c2.toNat / 4 :=
    toNat_shiftRight c2 (show 2 < 8 by decide)
  refine ⟨?_, ?_, ?_⟩
  · have hjoin := toNat_or_shiftLeft c0 (c1 >>> 4) (show 2 < 8 by decide)
      (by omega)
    simpa [hfirst] using hjoin
  · have hjoin := toNat_or_shiftLeft c1 (c2 >>> 2) (show 4 < 8 by decide)
      (by omega)
    simpa [hsecond] using hjoin
  · exact toNat_or_shiftLeft c2 c3 (show 6 < 8 by decide) h3

theorem unpackCodes_packGroups {codes : Bytes} (hcodes : SixBit codes)
    (hlength : codes.length % 4 = 0) :
    unpackCodes (packGroups codes) = codes := by
  induction codes using packGroups.induct with
  | case1 c0 c1 c2 c3 rest ih =>
      simp only [SixBit, List.forall_mem_cons, UInt8.lt_iff_toNat_lt]
        at hcodes
      obtain ⟨h0, h1, h2, h3, hrest⟩ := hcodes
      change c0.toNat < 64 at h0
      change c1.toNat < 64 at h1
      change c2.toNat < 64 at h2
      change c3.toNat < 64 at h3
      simp only [List.length_cons] at hlength
      have hlater := ih (fun code hcode =>
        UInt8.lt_iff_toNat_lt.mpr (hrest code hcode)) (by omega)
      obtain ⟨hb0, hb1, hb2⟩ := toNat_packGroups c0 h1 h2 h3
      obtain ⟨hc0, hc1, hc2, hc3⟩ := toNat_unpackCodes
        ((c0 <<< 2) ||| (c1 >>> 4)) ((c1 <<< 4) ||| (c2 >>> 2))
        ((c2 <<< 6) ||| c3)
      rw [packGroups, unpackCodes, hlater]
      simp only [List.cons.injEq, ← UInt8.toNat_inj, hc0, hc1, hc2, hc3, hb0,
        hb1, hb2, and_true]
      omega
  | case2 codes h =>
      rcases codes with _ | ⟨c0, _ | ⟨c1, _ | ⟨c2, _ | ⟨c3, rest⟩⟩⟩⟩
      · rfl
      · simp at hlength
      · simp at hlength
      · simp at hlength
      · exact absurd rfl (h c0 c1 c2 c3 rest)

/-! ## Characters -/

def Packable (character : Char) : Prop :=
  0x20 ≤ character.toNat ∧ character.toNat ≤ 0x5f

instance (character : Char) : Decidable (Packable character) :=
  inferInstanceAs (Decidable (_ ∧ _))

def packCode (character : Char) : UInt8 :=
  UInt8.ofNat character.toNat &&& 0x3f

theorem forall_packable {P : Char → Prop}
    (h : ∀ i : Fin 64, P (Char.ofNat (i + 0x20))) {character : Char}
    (hpackable : Packable character) : P character := by
  obtain ⟨hlow, hhigh⟩ := hpackable
  have hchar := h ⟨character.toNat - 0x20, by omega⟩
  simp only at hchar
  rwa [Nat.sub_add_cancel hlow, Char.ofNat_toNat] at hchar

theorem unpackChar_packCode {character : Char} (h : Packable character) :
    unpackChar (packCode character) = character := by
  exact forall_packable (P := fun c => unpackChar (packCode c) = c)
    (by decide) h

theorem packCode_lt (character : Char) : packCode character < 0x40 := by
  unfold packCode
  generalize UInt8.ofNat character.toNat = byte
  revert byte
  exact forall_byte (by decide +kernel)

theorem packCodes_ok_iff {capacity : Nat} {text : List Char}
    {codes packed : Bytes} (hcodes : codes.length ≤ capacity) :
    packCodes capacity text codes = .ok packed ↔
      (∀ character ∈ text, Packable character) ∧
      codes.length + text.length ≤ capacity ∧
      packed = codes ++ text.map packCode := by
  induction text generalizing codes with
  | nil => simp [packCodes, hcodes, eq_comm]
  | cons character text ih =>
      by_cases hfull : codes.length = capacity
      · simp only [packCodes, hfull, or_true, if_true, List.length_cons]
        constructor
        · intro h
          contradiction
        · rintro ⟨-, hlength, -⟩
          omega
      by_cases hpackable : Packable character
      · have hlonger : (codes ++ [packCode character]).length ≤ capacity := by
          simp
          omega
        have hstep : packCodes capacity (character :: text) codes =
            packCodes capacity text (codes ++ [packCode character]) := by
          rw [packCodes]
          exact if_neg (not_or.mpr ⟨not_not.mpr hpackable, hfull⟩)
        rw [hstep, ih hlonger]
        simp [hpackable, Nat.add_assoc, Nat.add_comm 1]
      · have hstep : packCodes capacity (character :: text) codes =
            .error (.operation (.invalidValue "packed-text character")) := by
          rw [packCodes]
          exact if_pos (.inl hpackable)
        simp [hstep, hpackable]

theorem packText_ok_iff (text : String) (outputBytes : Nat)
    (packed : Bytes) :
    packText text outputBytes = .ok packed ↔
      (outputBytes ≤ 255 ∧ outputBytes % 3 = 0) ∧
      (∀ character ∈ text.toList, Packable character) ∧
      text.toList.length ≤ outputBytes / 3 * 4 ∧
      packed = packGroups (text.toList.map packCode ++ List.replicate
        (outputBytes / 3 * 4 - text.toList.length) 0x20) := by
  unfold packText
  split_ifs with hlength
  · simp only [false_iff]
    rintro ⟨hfits, -⟩
    omega
  · dsimp only
    cases hcodes : packCodes (outputBytes / 3 * 4) text.toList [] with
    | error error =>
        simp only [Except.map, false_iff, reduceCtorEq]
        rintro ⟨-, hpackable, hfits, -⟩
        have hok := (packCodes_ok_iff (show ([] : Bytes).length ≤
          outputBytes / 3 * 4 from Nat.zero_le _)).mpr
          ⟨hpackable, by simpa using hfits, rfl⟩
        rw [hcodes] at hok
        contradiction
    | ok codes =>
        obtain ⟨hpackable, hfits, rfl⟩ :=
          (packCodes_ok_iff (Nat.zero_le _)).mp hcodes
        simp only [List.length_nil, Nat.zero_add] at hfits
        have hbounds : outputBytes ≤ 255 ∧ outputBytes % 3 = 0 := by
          omega
        simp only [Except.map, Except.ok.injEq, List.nil_append,
          List.length_map, hbounds, and_self, hfits, true_and]
        exact ⟨fun heq => ⟨hpackable, heq.symm⟩, fun h => h.2.symm⟩

/-! ## Round trips -/

theorem trimEnd_append_spaces (text : List Char) (count : Nat) :
    trimEnd (text ++ List.replicate count ' ') = trimEnd text := by
  have hspace : isWhitespace ' ' = true := by decide
  induction count with
  | zero => simp
  | succ count ih =>
      rw [List.replicate_succ', ← List.append_assoc, trimEnd,
        List.rdropWhile_concat, if_pos hspace]
      exact ih

theorem length_packGroups (codes : Bytes) :
    (packGroups codes).length = codes.length / 4 * 3 := by
  induction codes using packGroups.induct with
  | case1 c0 c1 c2 c3 rest ih =>
      simp only [packGroups, List.length_cons, ih]
      omega
  | case2 codes h =>
      rcases codes with _ | ⟨c0, _ | ⟨c1, _ | ⟨c2, _ | ⟨c3, rest⟩⟩⟩⟩
      · simp [packGroups]
      · simp [packGroups]
      · simp [packGroups]
      · simp [packGroups]
      · exact absurd rfl (h c0 c1 c2 c3 rest)

theorem unpackCodes_packText {text : String} {outputBytes : Nat}
    {packed : Bytes} (h : packText text outputBytes = .ok packed) :
    packed.length = outputBytes ∧
      unpackCodes packed = text.toList.map packCode ++ List.replicate
        (outputBytes / 3 * 4 - text.toList.length) 0x20 := by
  obtain ⟨hbounds, -, hfits, rfl⟩ := (packText_ok_iff ..).mp h
  have hlength : (text.toList.map packCode ++ List.replicate
      (outputBytes / 3 * 4 - text.toList.length) (0x20 : UInt8)).length =
      outputBytes / 3 * 4 := by
    rw [List.length_append, List.length_map, List.length_replicate]
    omega
  constructor
  · rw [length_packGroups, hlength]
    omega
  · apply unpackCodes_packGroups
    · intro code hcode
      rcases List.mem_append.mp hcode with hcode | hcode
      · obtain ⟨character, -, rfl⟩ := List.mem_map.mp hcode
        exact packCode_lt character
      · rw [List.eq_of_mem_replicate hcode]
        decide
    · rw [hlength]
      omega

theorem unpackText_packText {text : String} {outputBytes : Nat}
    {packed : Bytes} (h : packText text outputBytes = .ok packed) :
    unpackText packed = String.ofList (trimEnd text.toList) := by
  have hspace : unpackChar 0x20 = ' ' := by decide
  obtain ⟨-, hpackable, -⟩ := (packText_ok_iff ..).mp h
  have hcodes := (unpackCodes_packText h).2
  have hmap : (text.toList.map packCode).map unpackChar = text.toList := by
    rw [List.map_map]
    exact (List.map_congr_left fun character hcharacter =>
      unpackChar_packCode (hpackable character hcharacter)).trans
        (List.map_id _)
  rw [unpackText, hcodes, List.map_append, hmap, List.map_replicate, hspace,
    trimEnd_append_spaces]

/-! ## Packing what was unpacked -/

theorem isWhitespace_iff {character : Char} (h : Packable character) :
    isWhitespace character = decide (character = ' ') := by
  exact forall_packable (P := fun c => isWhitespace c = decide (c = ' '))
    (by decide) h

theorem trimEnd_eq_spaces {text : List Char}
    (h : ∀ character ∈ text, Packable character) :
    trimEnd text = text.rdropWhile (· = ' ') := by
  induction text using List.reverseRecOn with
  | nil => rfl
  | append_singleton text character ih =>
      have hlast := isWhitespace_iff (h character (by simp))
      rw [trimEnd, List.rdropWhile_concat, List.rdropWhile_concat, hlast,
        ← ih fun other hother => h other (List.mem_append_left _ hother)]
      rfl

/-- Trimmed spaces are those that padding adds. -/
theorem trimEnd_append_replicate {text : List Char}
    (h : ∀ character ∈ text, Packable character) :
    trimEnd text ++
      List.replicate (text.length - (trimEnd text).length) ' ' = text := by
  rw [trimEnd_eq_spaces h]
  have hparts := List.rdropWhile_append_rtakeWhile (p := (· = ' ')) (l := text)
  have hspaces : text.rtakeWhile (· = ' ') =
      List.replicate (text.rtakeWhile (· = ' ')).length ' ' := by
    rw [List.eq_replicate_iff]
    refine ⟨rfl, fun character hcharacter => ?_⟩
    simpa using List.mem_rtakeWhile_imp hcharacter
  have hlength := congrArg List.length hparts
  rw [List.length_append] at hlength
  have hcount : text.length - (text.rdropWhile (· = ' ')).length =
      (text.rtakeWhile (· = ' ')).length := by
    omega
  rw [hcount, ← hspaces]
  exact hparts

theorem packable_unpackChar {code : UInt8} (h : code < 0x40) :
    Packable (unpackChar code) ∧ packCode (unpackChar code) = code := by
  have hall : ∀ byte : UInt8, byte < 0x40 →
      Packable (unpackChar byte) ∧ packCode (unpackChar byte) = byte :=
    fun byte => forall_byte (P := fun byte => byte < 0x40 →
      Packable (unpackChar byte) ∧ packCode (unpackChar byte) = byte)
      (by decide +kernel) byte
  exact hall code h

theorem length_unpackCodes (bytes : Bytes) :
    (unpackCodes bytes).length = bytes.length / 3 * 4 := by
  induction bytes using unpackCodes.induct with
  | case1 b0 b1 b2 rest ih =>
      simp only [unpackCodes, List.length_cons, ih]
      omega
  | case2 bytes h =>
      rcases bytes with _ | ⟨b0, _ | ⟨b1, _ | ⟨b2, rest⟩⟩⟩
      · simp [unpackCodes]
      · simp [unpackCodes]
      · simp [unpackCodes]
      · exact absurd rfl (h b0 b1 b2 rest)

theorem packGroups_unpackCodes {bytes : Bytes}
    (hlength : bytes.length % 3 = 0) :
    packGroups (unpackCodes bytes) = bytes := by
  induction bytes using unpackCodes.induct with
  | case1 b0 b1 b2 rest ih =>
      have h0 := b0.toNat_lt
      have h1 := b1.toNat_lt
      have h2 := b2.toNat_lt
      obtain ⟨hc0, hc1, hc2, hc3⟩ := toNat_unpackCodes b0 b1 b2
      simp only [List.length_cons] at hlength
      have hlater := ih (by omega)
      obtain ⟨hb0, hb1, hb2⟩ := toNat_packGroups (b0 >>> 2)
        (show (((b0 &&& 0x03) <<< 4) ||| (b1 >>> 4)).toNat < 64 by omega)
        (show (((b1 &&& 0x0f) <<< 2) ||| (b2 >>> 6)).toNat < 64 by omega)
        (show (b2 &&& 0x3f).toNat < 64 by omega)
      rw [unpackCodes, packGroups, hlater]
      simp only [List.cons.injEq, ← UInt8.toNat_inj, hb0, hb1, hb2, hc0, hc1,
        hc2, hc3, and_true]
      omega
  | case2 bytes h =>
      rcases bytes with _ | ⟨b0, _ | ⟨b1, _ | ⟨b2, rest⟩⟩⟩
      · rfl
      · simp at hlength
      · simp at hlength
      · exact absurd rfl (h b0 b1 b2 rest)

theorem packText_unpackText {bytes : Bytes} (hlength : bytes.length % 3 = 0)
    (hbound : bytes.length ≤ 255) :
    packText (unpackText bytes) bytes.length = .ok bytes := by
  have hcodes := sixBit_unpackCodes bytes
  have hpackable : ∀ character ∈ (unpackCodes bytes).map unpackChar,
      Packable character := by
    intro character hcharacter
    obtain ⟨code, hcode, rfl⟩ := List.mem_map.mp hcharacter
    exact (packable_unpackChar (hcodes code hcode)).1
  have hback : ((unpackCodes bytes).map unpackChar).map packCode =
      unpackCodes bytes := by
    rw [List.map_map]
    exact (List.map_congr_left fun code hcode =>
      (packable_unpackChar (hcodes code hcode)).2).trans (List.map_id _)
  have hpadded := trimEnd_append_replicate hpackable
  have hcount : ((unpackCodes bytes).map unpackChar).length =
      bytes.length / 3 * 4 := by
    rw [List.length_map, length_unpackCodes]
  have htrimmed : ∀ character ∈
      trimEnd ((unpackCodes bytes).map unpackChar), Packable character :=
    fun character hcharacter => hpackable character
      ((List.rdropWhile_prefix _ _).subset hcharacter)
  have hfits := (List.rdropWhile_prefix isWhitespace
    ((unpackCodes bytes).map unpackChar)).length_le
  rw [hcount] at hfits hpadded
  refine (packText_ok_iff ..).mpr ⟨⟨hbound, hlength⟩, ?_⟩
  have hspace : packCode ' ' = 0x20 := by decide
  rw [unpackText, String.toList_ofList, ← hspace, ← List.map_replicate,
    ← List.map_append]
  refine ⟨htrimmed, hfits, ?_⟩
  rw [hpadded, hback, packGroups_unpackCodes hlength]

/-! ## Tag, descriptor and date -/

structure DeviceDate where
  day : UInt8
  month : UInt8
  yearSince1900 : UInt8
  deriving DecidableEq, Repr

structure TagDescriptorDate where
  tag : String
  descriptor : String
  date : DeviceDate
  deriving DecidableEq, Repr

def validateDate (date : DeviceDate) : Except CodecError Unit :=
  if date.day = 0 ∧ date.month = 0 ∧ date.yearSince1900 = 0 then .ok ()
  else if ¬(1 ≤ date.day ∧ date.day ≤ 31) ∨
      ¬(1 ≤ date.month ∧ date.month ≤ 12) then
    .error (.operation (.invalidValue "device date"))
  else .ok ()

/-- The request of Command 18. -/
structure WriteTagDescriptorDate where
  data : Bytes
  deriving DecidableEq, Repr

def WriteTagDescriptorDate.new (value : TagDescriptorDate) :
    Except CodecError WriteTagDescriptorDate := do
  validateDate value.date
  let tag ← packText value.tag 6
  let descriptor ← packText value.descriptor 12
  return ⟨tag ++ descriptor ++
    [value.date.day, value.date.month, value.date.yearSince1900]⟩

def decodeTagDescriptorDate (data : Bytes) :
    Except CodecError TagDescriptorDate := do
  if data.length ≠ 21 then
    .error (.operation (.invalidValue "tag, descriptor, and date length"))
  let date : DeviceDate :=
    ⟨data.getD 18 0, data.getD 19 0, data.getD 20 0⟩
  validateDate date
  return ⟨unpackText (data.take 6), unpackText (slice data 6 18), date⟩

/-- The parts that a write puts one after the other. -/
theorem WriteTagDescriptorDate.new_ok {value : TagDescriptorDate}
    {operation : WriteTagDescriptorDate} (h : new value = .ok operation) :
    ∃ tag descriptor, packText value.tag 6 = .ok tag ∧
      packText value.descriptor 12 = .ok descriptor ∧
      validateDate value.date = .ok () ∧
      operation.data = tag ++ descriptor ++
        [value.date.day, value.date.month, value.date.yearSince1900] := by
  simp only [new, bind, Except.bind, pure, Except.pure] at h
  cases hdate : validateDate value.date with
  | error error =>
      rw [hdate] at h
      contradiction
  | ok date =>
  cases htag : packText value.tag 6 with
  | error error =>
      rw [hdate, htag] at h
      contradiction
  | ok tag =>
  cases hdescriptor : packText value.descriptor 12 with
  | error error =>
      rw [hdate, htag, hdescriptor] at h
      contradiction
  | ok descriptor =>
      rw [hdate, htag, hdescriptor] at h
      injection h with h
      subst h
      exact ⟨tag, descriptor, rfl, rfl, rfl, rfl⟩

def withoutTrailingSpaces (text : String) : String :=
  String.ofList (text.toList.rdropWhile (· = ' '))

theorem unpackText_packText_spaces {text : String} {outputBytes : Nat}
    {packed : Bytes} (h : packText text outputBytes = .ok packed) :
    unpackText packed = withoutTrailingSpaces text := by
  obtain ⟨-, hpackable, -⟩ := (packText_ok_iff ..).mp h
  rw [unpackText_packText h, trimEnd_eq_spaces hpackable]
  rfl

theorem decode_written {value : TagDescriptorDate}
    {operation : WriteTagDescriptorDate}
    (h : WriteTagDescriptorDate.new value = .ok operation) :
    operation.data.length = 21 ∧
      decodeTagDescriptorDate operation.data =
        .ok ⟨withoutTrailingSpaces value.tag,
          withoutTrailingSpaces value.descriptor, value.date⟩ := by
  obtain ⟨tag, descriptor, htag, hdescriptor, hdate, hdata⟩ :=
    WriteTagDescriptorDate.new_ok h
  have htagLength := (unpackCodes_packText htag).1
  have hdescriptorLength := (unpackCodes_packText hdescriptor).1
  have hlength : operation.data.length = 21 := by
    simp [hdata, htagLength, hdescriptorLength]
  have hfirst : operation.data.take 6 = tag := by
    rw [hdata, List.append_assoc, ← htagLength, List.take_left]
  have hsecond : slice operation.data 6 18 = descriptor := by
    rw [slice, hdata, List.append_assoc, ← htagLength, List.drop_left,
      htagLength]
    exact List.take_left' hdescriptorLength
  have hparts : (tag ++ descriptor).length = 18 := by
    rw [List.length_append, htagLength, hdescriptorLength]
  have hlast : ∀ index, operation.data.getD (18 + index) 0 =
      [value.date.day, value.date.month, value.date.yearSince1900].getD
        index 0 := by
    intro index
    rw [hdata, ← hparts]
    simp only [List.getD_eq_getElem?_getD, List.getElem?_append_right
      (Nat.le_add_right _ index), Nat.add_sub_cancel_left]
  refine ⟨hlength, ?_⟩
  have hread : (⟨operation.data.getD 18 0, operation.data.getD 19 0,
      operation.data.getD 20 0⟩ : DeviceDate) = value.date :=
    congr (congr (congrArg DeviceDate.mk (hlast 0)) (hlast 1)) (hlast 2)
  rw [decodeTagDescriptorDate, hread, hfirst, hsecond,
    if_neg (not_not.mpr hlength)]
  dsimp only
  rw [hdate, unpackText_packText_spaces htag,
    unpackText_packText_spaces hdescriptor]
  rfl

/--
Packing is a faithful code in both directions, and so is the record of a tag, a
descriptor and a date that is made of two packed texts.
-/
theorem packed_text_faithful (text : String) (outputBytes : Nat)
    (bytes : Bytes) (value : TagDescriptorDate)
    (operation : WriteTagDescriptorDate) :
    (outputBytes % 3 = 0 → outputBytes ≤ 255 →
      ((∃ packed, packText text outputBytes = .ok packed) ↔
        text.toList.length ≤ 4 * outputBytes / 3 ∧
          ∀ character ∈ text.toList,
            0x20 ≤ character.toNat ∧ character.toNat ≤ 0x5f) ∧
      ∀ packed, packText text outputBytes = .ok packed →
        packed.length = outputBytes ∧
          unpackText packed = withoutTrailingSpaces text) ∧
    (bytes.length % 3 = 0 → bytes.length ≤ 255 →
      packText (unpackText bytes) bytes.length = .ok bytes) ∧
    (WriteTagDescriptorDate.new value = .ok operation →
      operation.data.length = 21 ∧
        decodeTagDescriptorDate operation.data = .ok { value with
          tag := withoutTrailingSpaces value.tag
          descriptor := withoutTrailingSpaces value.descriptor }) := by
  refine ⟨?_, packText_unpackText, decode_written⟩
  intro hmultiple hbound
  constructor
  · simp only [packText_ok_iff, exists_and_left, exists_eq, and_true]
    constructor
    · rintro ⟨-, hpackable, hfits⟩
      exact ⟨by omega, hpackable⟩
    · rintro ⟨hfits, hpackable⟩
      exact ⟨⟨hbound, hmultiple⟩, hpackable, by omega⟩
  · intro packed hpacked
    exact ⟨(unpackCodes_packText hpacked).1,
      unpackText_packText_spaces hpacked⟩

end HartLink.Operation
