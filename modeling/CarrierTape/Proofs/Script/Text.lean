import CarrierTape.Proofs.Decimal.Fixed
import CarrierTape.Script.Statement

/-!
The text of a script as bytes. Statements are written in printable ASCII, so a
character of a script is a byte of it, and the only ends of lines are those that
follow the statements.
-/

namespace CarrierTape

def bytes (text : String) : List UInt8 :=
  text.toUTF8.data.toList

def lineFeed : UInt8 :=
  10

/-- The printable characters of ASCII. -/
def isPrintableAscii (c : Char) : Bool :=
  32 ≤ c.toNat && c.toNat < 127

theorem isPrintableAscii_of_isNumberChar {c : Char} (h : Decimal.Fixed.isNumberChar c) :
    isPrintableAscii c := by
  rw [Decimal.Fixed.isNumberChar, Bool.or_eq_true] at h
  rcases h with hdigit | hother
  · rw [Char.isDigit_iff_toNat] at hdigit
    have hzero : '0'.toNat = 48 := rfl
    have hnine : '9'.toNat = 57 := rfl
    simp only [isPrintableAscii, Bool.and_eq_true, decide_eq_true_eq]
    omega
  · simp only [List.contains_iff_mem, List.mem_cons, List.not_mem_nil, or_false] at hother
    rcases hother with rfl | rfl | rfl | rfl | rfl | rfl | rfl <;> decide

theorem isPrintableAscii_of_mem_format {f : NumberFormat} {x : Binary64} :
    ∀ c ∈ f.format x, isPrintableAscii c :=
  fun _ h => isPrintableAscii_of_isNumberChar (NumberFormat.isNumberChar_of_mem_format h)

theorem isPrintableAscii_of_mem_toDigits {n : Nat} :
    ∀ c ∈ Nat.toDigits 10 n, isPrintableAscii c :=
  fun _ h => isPrintableAscii_of_isNumberChar (Decimal.Fixed.isNumberChar_of_mem_toDigits h)

namespace Statement

theorem isPrintableAscii_of_mem_pointText {f : NumberFormat} {p : Point} :
    ∀ c ∈ pointText f p, isPrintableAscii c := by
  simp only [pointText, List.forall_mem_append, List.forall_mem_cons]
  exact ⟨⟨⟨by decide, isPrintableAscii_of_mem_format⟩, by decide, isPrintableAscii_of_mem_format⟩,
    by decide, nofun⟩

theorem isPrintableAscii_of_mem_render {f : NumberFormat} {s : Statement} :
    ∀ c ∈ s.render f, isPrintableAscii c := by
  unfold render
  cases s with
  | grid => exact List.all_eq_true.1 rfl
  | layer id =>
    simp only [List.forall_mem_append]
    exact ⟨⟨List.all_eq_true.1 rfl, isPrintableAscii_of_mem_toDigits⟩, List.all_eq_true.1 rfl⟩
  | changeWidth w =>
    simp only [List.forall_mem_append]
    exact ⟨⟨List.all_eq_true.1 rfl, isPrintableAscii_of_mem_format⟩, List.all_eq_true.1 rfl⟩
  | rect r =>
    simp only [List.forall_mem_append, List.forall_mem_cons]
    exact ⟨⟨⟨List.all_eq_true.1 rfl, isPrintableAscii_of_mem_pointText⟩, by decide,
      isPrintableAscii_of_mem_pointText⟩, by decide, nofun⟩
  | circle centre edge =>
    simp only [List.forall_mem_append, List.forall_mem_cons]
    exact ⟨⟨⟨List.all_eq_true.1 rfl, isPrintableAscii_of_mem_pointText⟩, by decide,
      isPrintableAscii_of_mem_pointText⟩, by decide, nofun⟩

theorem lineFeed_not_mem_render (f : NumberFormat) (s : Statement) : '\n' ∉ s.render f := by
  intro hmem
  have hprintable := isPrintableAscii_of_mem_render _ hmem
  revert hprintable
  decide

theorem count_lineFeed_line (f : NumberFormat) (s : Statement) : (s.line f).count '\n' = 1 := by
  rw [line, List.count_append, List.count_eq_zero.2 (lineFeed_not_mem_render f s)]
  rfl

theorem length_line_pos (f : NumberFormat) (s : Statement) : 0 < (s.line f).length := by
  simp [line]

/-- Only the last character of a line ends it. -/
theorem count_lineFeed_take_line (f : NumberFormat) (s : Statement) {k : Nat}
    (h : k < (s.line f).length) : ((s.line f).take k).count '\n' = 0 := by
  have hle : k ≤ (s.render f).length := by
    simp [line] at h
    omega
  rw [line, List.take_append_of_le_length hle, List.count_eq_zero]
  exact fun hmem => lineFeed_not_mem_render f s (List.mem_of_mem_take hmem)

theorem renderAll_append (f : NumberFormat) (xs ys : List Statement) :
    renderAll f (xs ++ ys) = renderAll f xs ++ renderAll f ys :=
  List.flatMap_append

theorem renderAll_cons (f : NumberFormat) (s : Statement) (rest : List Statement) :
    renderAll f (s :: rest) = s.line f ++ renderAll f rest :=
  List.flatMap_cons

theorem toNat_lt_of_mem_renderAll {f : NumberFormat} {statements : List Statement} {c : Char}
    (h : c ∈ renderAll f statements) : c.toNat < 128 := by
  obtain ⟨s, -, hc⟩ := List.mem_flatMap.1 h
  rcases List.mem_append.1 hc with hrender | hend
  · have hprintable := isPrintableAscii_of_mem_render c hrender
    simp only [isPrintableAscii, Bool.and_eq_true, decide_eq_true_eq] at hprintable
    omega
  · rw [List.mem_singleton.1 hend]
    decide

end Statement

/-- The byte of an ASCII character. -/
def byteOf (c : Char) : UInt8 :=
  c.val.toUInt8

theorem bytes_ofList {cs : List Char} (h : ∀ c ∈ cs, c.toNat < 128) :
    bytes (String.ofList cs) = cs.map byteOf := by
  have hchar : ∀ c ∈ cs, String.utf8EncodeChar c = [byteOf c] := by
    intro c hc
    have hlt := h c hc
    refine String.utf8EncodeChar_eq_singleton (Char.utf8Size_eq_one_iff.2 ?_)
    rw [UInt32.le_iff_toNat_le]
    have hval : c.val.toNat = c.toNat := rfl
    have hbound : (127 : UInt32).toNat = 127 := rfl
    omega
  have hflat : cs.flatMap String.utf8EncodeChar = cs.map byteOf := by
    rw [← List.flatMap_singleton' (cs.map byteOf), List.flatMap_map]
    exact List.flatMap_congr hchar
  rw [bytes, String.toUTF8, String.toByteArray_ofList, List.utf8Encode,
    List.toList_data_toByteArray, hflat]

theorem bytes_renderAll (f : NumberFormat) (statements : List Statement) :
    bytes (String.ofList (Statement.renderAll f statements)) =
      (Statement.renderAll f statements).map byteOf :=
  bytes_ofList fun _ => Statement.toNat_lt_of_mem_renderAll

theorem byteOf_eq_lineFeed_iff {c : Char} (h : c.toNat < 128) : byteOf c = lineFeed ↔ c = '\n' := by
  have hnat : (byteOf c).toNat = c.toNat := by
    rw [byteOf, UInt32.toNat_toUInt8]
    exact Nat.mod_eq_of_lt (by change c.toNat < 2 ^ 8; omega)
  constructor
  · intro hbyte
    have hten : c.toNat = 10 := by rw [← hnat, hbyte]; rfl
    exact Char.toNat_inj.1 hten
  · rintro rfl
    rfl

theorem count_lineFeed_map_byteOf {cs : List Char} (h : ∀ c ∈ cs, c.toNat < 128) :
    (cs.map byteOf).count lineFeed = cs.count '\n' := by
  induction cs with
  | nil => rfl
  | cons c rest ih =>
    obtain ⟨hc, hrest⟩ := List.forall_mem_cons.1 h
    rw [List.map_cons, List.count_cons, List.count_cons, ih hrest]
    simp only [beq_iff_eq, byteOf_eq_lineFeed_iff hc]

end CarrierTape
