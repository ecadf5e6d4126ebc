import HartLink.Foundation.ByteOrder

/-!
# Files of blocks

A block begins with its type and its total length and ends with the total length
again, all little endian.  A file is read block after block to its last byte;
one wrong length makes the blocks behind it unreadable.
-/

namespace HartLink.Foundation

structure Block where
  blockType : Nat
  totalLength : Nat
  body : Bytes
  trailer : Nat
  deriving DecidableEq, Repr

def readBlock (input : Bytes) : Option (Block × Bytes) :=
  let totalLength := leValue ((input.drop 4).take 4)
  if 12 ≤ totalLength ∧ totalLength ≤ input.length then
    some ({ blockType := leValue (input.take 4)
            totalLength
            body := (input.drop 8).take (totalLength - 12)
            trailer := leValue ((input.drop (totalLength - 4)).take 4) },
      input.drop totalLength)
  else none

/-- Every block takes bytes, so that the length of the input is enough fuel. -/
def readBlocks : Nat → Bytes → Option (List Block)
  | _, [] => some []
  | 0, _ => none
  | fuel + 1, input => do
      let (block, rest) ← readBlock input
      let blocks ← readBlocks fuel rest
      return block :: blocks

def parseBlocks (input : Bytes) : Option (List Block) :=
  readBlocks input.length input

/-! ## Writing -/

def blockOf (blockType : Nat) (body : Bytes) : Block where
  blockType := blockType
  totalLength := body.length + 12
  body := body
  trailer := body.length + 12

def writeBlock (block : Block) : Bytes :=
  leBytes 4 block.blockType ++ (leBytes 4 block.totalLength ++
    (block.body ++ leBytes 4 block.trailer))

/-- A block whose lengths agree and fit their fields. -/
structure Block.Readable (block : Block) : Prop where
  blockType : block.blockType < 2 ^ 32
  totalLength : block.totalLength = block.body.length + 12
  trailer : block.trailer = block.totalLength
  fits : block.totalLength < 2 ^ 32

theorem length_writeBlock {block : Block} (h : block.Readable) :
    (writeBlock block).length = block.totalLength := by
  rw [h.totalLength]
  simp only [writeBlock, List.length_append, length_leBytes]
  omega

theorem readBlock_writeBlock {block : Block} (h : block.Readable)
    (rest : Bytes) :
    readBlock (writeBlock block ++ rest) = some (block, rest) := by
  have hinput : writeBlock block ++ rest =
      leBytes 4 block.blockType ++ (leBytes 4 block.totalLength ++
        (block.body ++ (leBytes 4 block.trailer ++ rest))) := by
    simp only [writeBlock, List.append_assoc]
  have htype : leValue ((writeBlock block ++ rest).take 4) =
      block.blockType := by
    rw [hinput, List.take_left' (length_leBytes ..)]
    exact leValue_leBytes h.blockType
  have htotal : leValue (((writeBlock block ++ rest).drop 4).take 4) =
      block.totalLength := by
    rw [hinput, List.drop_left' (length_leBytes ..),
      List.take_left' (length_leBytes ..)]
    exact leValue_leBytes h.fits
  have hbehind : (writeBlock block ++ rest).drop 8 =
      block.body ++ (leBytes 4 block.trailer ++ rest) := by
    rw [hinput, show 8 = 4 + 4 from rfl, ← List.drop_drop,
      List.drop_left' (length_leBytes ..), List.drop_left' (length_leBytes ..)]
  have hbody : ((writeBlock block ++ rest).drop 8).take
      (block.totalLength - 12) = block.body := by
    rw [hbehind, h.totalLength, Nat.add_sub_cancel, List.take_left]
  have htrailer : leValue (((writeBlock block ++ rest).drop
      (block.totalLength - 4)).take 4) = block.trailer := by
    rw [h.totalLength, show block.body.length + 12 - 4 =
      8 + block.body.length by omega, ← List.drop_drop, hbehind,
      List.drop_left, List.take_left' (length_leBytes ..)]
    exact leValue_leBytes (h.trailer ▸ h.fits)
  have hlength := length_writeBlock h
  have hrest : (writeBlock block ++ rest).drop block.totalLength = rest :=
    List.drop_left' hlength
  have hroom : 12 ≤ block.totalLength ∧
      block.totalLength ≤ (writeBlock block ++ rest).length := by
    rw [List.length_append, hlength, h.totalLength]
    omega
  unfold readBlock
  dsimp only
  rw [htotal, if_pos hroom, htype, hbody, htrailer, hrest]

theorem readBlocks_writeBlocks {blocks : List Block}
    (h : ∀ block ∈ blocks, block.Readable) {fuel : Nat}
    (hfuel : blocks.length ≤ fuel) :
    readBlocks fuel (blocks.flatMap writeBlock) = some blocks := by
  induction blocks generalizing fuel with
  | nil =>
      cases fuel with
      | zero => rfl
      | succ fuel => rfl
  | cons block blocks ih =>
      rw [List.forall_mem_cons] at h
      obtain ⟨fuel, rfl⟩ : ∃ less, fuel = less + 1 :=
        ⟨fuel - 1, by rw [List.length_cons] at hfuel; omega⟩
      have hread := readBlock_writeBlock h.1 (blocks.flatMap writeBlock)
      have hnext := ih h.2 (Nat.le_of_succ_le_succ hfuel)
      rw [List.flatMap_cons]
      cases hinput : writeBlock block ++ blocks.flatMap writeBlock with
      | nil =>
          have hlength := length_writeBlock h.1
          rw [(List.append_eq_nil_iff.mp hinput).1, h.1.totalLength] at hlength
          contradiction
      | cons byte input =>
          rw [hinput] at hread
          simp [readBlocks, hread, hnext]

theorem parseBlocks_writeBlocks {blocks : List Block}
    (h : ∀ block ∈ blocks, block.Readable) :
    parseBlocks (blocks.flatMap writeBlock) = some blocks := by
  apply readBlocks_writeBlocks h
  induction blocks with
  | nil => exact Nat.zero_le _
  | cons block blocks ih =>
      rw [List.forall_mem_cons] at h
      have hlength := length_writeBlock h.1
      have hrest := ih h.2
      rw [h.1.totalLength] at hlength
      rw [List.flatMap_cons, List.length_append, List.length_cons]
      omega

end HartLink.Foundation
