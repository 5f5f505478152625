import BatchAuction.Text.Utf8

/-!
# UTF-8 is read back

The bytes of a character begin it, extend it and end it. What is read after them is read
as if nothing had stood before it.
-/

set_option autoImplicit false

namespace BatchAuction.Text.Utf8

variable {point : Nat} {rest : List UInt8}

theorem toNat_ofNat {value : Nat} (small : value < 256) : (UInt8.ofNat value).toNat = value :=
  UInt8.toNat_ofNat_of_lt small

private theorem pieces_character (small : point < 0x80) :
    pieces none (UInt8.ofNat point :: rest) = some (Char.ofNat point) :: pieces none rest := by
  have is : lead point = .character point := if_pos small
  simp only [pieces, toNat_ofNat (show point < 256 by omega), is]

private theorem pieces_begin {value : Nat} {begun : Pending} (is : lead value = .pending begun)
    (small : value < 256) :
    pieces none (UInt8.ofNat value :: rest) = pieces (some begun) rest := by
  simp only [pieces, toNat_ofNat small, is]

private theorem pieces_extend {value bits missing lower upper : Nat}
    (least : lower ≤ 0x80 + value) (greatest : 0x80 + value ≤ upper) (small : value < 64) :
    pieces (some ⟨missing + 2, lower, upper, bits⟩) (UInt8.ofNat (0x80 + value) :: rest) =
      pieces (some ⟨missing + 1, 0x80, 0xBF, bits * 64 + value⟩) rest := by
  have extended : Pending.extend? ⟨missing + 2, lower, upper, bits⟩ (0x80 + value) =
      some (.pending ⟨missing + 1, 0x80, 0xBF, bits * 64 + value⟩) := by
    simp [Pending.extend?, least, greatest]
  simp only [pieces, toNat_ofNat (show 0x80 + value < 256 by omega), extended]

private theorem pieces_end {value bits lower upper : Nat}
    (least : lower ≤ 0x80 + value) (greatest : 0x80 + value ≤ upper) (small : value < 64) :
    pieces (some ⟨1, lower, upper, bits⟩) (UInt8.ofNat (0x80 + value) :: rest) =
      some (Char.ofNat (bits * 64 + value)) :: pieces none rest := by
  have extended : Pending.extend? ⟨1, lower, upper, bits⟩ (0x80 + value) =
      some (.character (bits * 64 + value)) := by
    simp [Pending.extend?, least, greatest]
  simp only [pieces, toNat_ofNat (show 0x80 + value < 256 by omega), extended]

private theorem lead_two (low : 0x80 ≤ point) (high : point < 0x800) :
    lead (0xC0 + point / 64) = .pending ⟨1, 0x80, 0xBF, point / 64⟩ := by
  unfold lead
  rw [if_neg (by omega), if_neg (by omega), if_pos (by omega), Nat.add_sub_cancel_left]

private theorem lead_three (low : 0x800 ≤ point) (high : point < 0x10000)
    (whole : point < 0xD800 ∨ 0xE000 ≤ point) :
    ∃ lower upper, lead (0xE0 + point / 4096) = .pending ⟨2, lower, upper, point / 4096⟩ ∧
      lower ≤ 0x80 + point / 64 % 64 ∧ 0x80 + point / 64 % 64 ≤ upper := by
  -- After a leading zero the second byte starts later, so that no form is overlong.
  by_cases overlong : point / 4096 = 0
  · rw [overlong]
    exact ⟨0xA0, 0xBF, rfl, by omega, by omega⟩
  -- After this one it ends earlier, before the surrogates.
  by_cases surrogate : point / 4096 = 13
  · rw [surrogate]
    exact ⟨0x80, 0x9F, rfl, by omega, by omega⟩
  refine ⟨0x80, 0xBF, ?_, by omega, by omega⟩
  unfold lead
  rw [if_neg (by omega), if_neg (by omega), if_neg (by omega), if_neg (by omega),
    if_neg (by omega), if_pos (by omega), Nat.add_sub_cancel_left]

private theorem lead_four (low : 0x10000 ≤ point) (high : point < 0x110000) :
    ∃ lower upper, lead (0xF0 + point / 262144) = .pending ⟨3, lower, upper, point / 262144⟩ ∧
      lower ≤ 0x80 + point / 4096 % 64 ∧ 0x80 + point / 4096 % 64 ≤ upper := by
  by_cases overlong : point / 262144 = 0
  · rw [overlong]
    exact ⟨0x90, 0xBF, rfl, by omega, by omega⟩
  by_cases last : point / 262144 = 4
  · rw [last]
    exact ⟨0x80, 0x8F, rfl, by omega, by omega⟩
  refine ⟨0x80, 0xBF, ?_, by omega, by omega⟩
  unfold lead
  rw [if_neg (by omega), if_neg (by omega), if_neg (by omega), if_neg (by omega),
    if_neg (by omega), if_neg (by omega), if_neg (by omega), if_pos (by omega),
    Nat.add_sub_cancel_left]

/-- A character is read back from its bytes, whatever follows. -/
theorem pieces_encodePoint (c : Char) (rest : List UInt8) :
    pieces none (encodePoint c.toNat ++ rest) = some c :: pieces none rest := by
  have valid : c.toNat < 0xD800 ∨ 0xDFFF < c.toNat ∧ c.toNat < 0x110000 := c.valid
  have same : ∀ point, point = c.toNat → Char.ofNat point = c := by
    rintro _ rfl
    exact Char.ofNat_toNat c
  unfold encodePoint
  by_cases one : c.toNat < 0x80
  · rw [if_pos one, List.singleton_append, pieces_character one, same _ rfl]
  rw [if_neg one]
  by_cases two : c.toNat < 0x800
  · rw [if_pos two, List.cons_append, List.singleton_append,
      pieces_begin (lead_two (by omega) two) (by omega),
      pieces_end (by omega) (by omega) (by omega), same _ (by omega)]
  rw [if_neg two]
  by_cases three : c.toNat < 0x10000
  · obtain ⟨lower, upper, begun, least, greatest⟩ := lead_three (by omega) three (by omega)
    rw [if_pos three, List.cons_append, List.cons_append, List.singleton_append,
      pieces_begin begun (by omega), pieces_extend least greatest (by omega),
      pieces_end (by omega) (by omega) (by omega), same _ (by omega)]
  · have last : c.toNat < 0x110000 := by omega
    obtain ⟨lower, upper, begun, least, greatest⟩ := lead_four (Nat.not_lt.mp three) last
    rw [if_neg three, List.cons_append, List.cons_append, List.cons_append,
      List.singleton_append, pieces_begin begun (by omega),
      pieces_extend least greatest (by omega), pieces_extend (by omega) (by omega) (by omega),
      pieces_end (by omega) (by omega) (by omega), same _ (by omega)]

theorem decode?_encode (cs : List Char) : decode? (encode cs) = some cs := by
  have read : pieces none (encode cs) = cs.map some := by
    induction cs with
    | nil => rfl
    | cons c rest ih =>
        have unfolded : encode (c :: rest) = encodePoint c.toNat ++ encode rest := rfl
        rw [unfolded, pieces_encodePoint, ih, List.map_cons]
  unfold decode?
  rw [read]
  clear read
  induction cs with
  | nil => rfl
  | cons c rest ih => simp only [List.map_cons, List.mapM_cons, ih]; rfl

theorem toString?_ofString (s : String) : toString? (ofString s) = some s := by
  unfold toString? ofString
  rw [decode?_encode, Option.map_some, String.ofList_toList]

end BatchAuction.Text.Utf8
