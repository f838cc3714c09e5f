import CarrierTape.Proofs.Script.Lines
import Mathlib.Data.List.Forall2

/-!
Reading a script line by line. No written number contains a blank, a bracket or the end
of a statement, so the words of a line are the numbers of its statement, as they were
written, behind words that tell its kind (`words_render`). A script is read back from
this statement by statement, and two lists of statements share a text only if no reader
could tell them apart (`renderAll_unambiguous`).
-/

namespace CarrierTape

/-! ### Words -/

/-- What may stand beside a number without a blank between. -/
def isMark (c : Char) : Bool :=
  ['(', ')', ';'].contains c

/-- The words of a line: what is left between its blanks without the marks. -/
def words (line : List Char) : List String :=
  ((line.filter (!isMark ·)).splitOn ' ').map String.ofList

def IsWord (cs : List Char) : Prop :=
  ∀ c ∈ cs, isMark c = false ∧ c ≠ ' '

theorem words_append_mark {c : Char} (hc : isMark c) (front back : List Char) :
    words (front ++ c :: back) = words (front ++ back) := by
  simp [words, hc]

theorem IsWord.filter_eq {word : List Char} (h : IsWord word) :
    word.filter (!isMark ·) = word := by
  rw [List.filter_eq_self]
  intro c hc
  rw [(h c hc).1]
  rfl

theorem IsWord.words_append_blank {word : List Char} (h : IsWord word) (rest : List Char) :
    words (word ++ ' ' :: rest) = String.ofList word :: words rest := by
  have hblank : ' ' ∉ word := fun hmem => (h _ hmem).2 rfl
  have hkept : (' ' :: rest).filter (!isMark ·) = ' ' :: rest.filter (!isMark ·) := rfl
  rw [words, List.filter_append, h.filter_eq, hkept,
    List.splitOn_append_cons_self_of_not_mem hblank]
  rfl

theorem IsWord.words_eq {word : List Char} (h : IsWord word) :
    words word = [String.ofList word] := by
  have hblank : ' ' ∉ word := fun hmem => (h _ hmem).2 rfl
  rw [words, h.filter_eq, List.splitOn_eq_singleton hblank]
  rfl

theorem isWord_of_isNumberChar {word : List Char}
    (h : ∀ c ∈ word, Decimal.Fixed.isNumberChar c) : IsWord word := by
  intro c hc
  have hnumber := h c hc
  refine ⟨Bool.eq_false_iff.2 fun hmark => ?_, ?_⟩
  · simp only [isMark, List.contains_iff_mem, List.mem_cons, List.not_mem_nil, or_false] at hmark
    rcases hmark with rfl | rfl | rfl <;> revert hnumber <;> decide
  · rintro rfl
    revert hnumber
    decide

theorem isWord_format (f : NumberFormat) (x : Binary64) : IsWord (f.format x) :=
  isWord_of_isNumberChar fun _ => NumberFormat.isNumberChar_of_mem_format

theorem isWord_toDigits (n : Nat) : IsWord (Nat.toDigits 10 n) :=
  isWord_of_isNumberChar fun _ => Decimal.Fixed.isNumberChar_of_mem_toDigits

namespace Statement

/-! ### The words of a statement -/

def numberText (f : NumberFormat) (x : Binary64) : String :=
  String.ofList (f.format x)

def pointWords (f : NumberFormat) (p : Point) : List String :=
  [numberText f p.x, numberText f p.y]

def wordsOf (f : NumberFormat) : Statement → List String
  | .grid => ["GRID", "mm", "1"]
  | .layer id => ["LAYER", String.ofList (Nat.toDigits 10 id.toNat)]
  | .changeWidth w => ["CHANGE", "WIDTH", numberText f w]
  | .rect r => "RECT" :: (pointWords f r.min ++ pointWords f r.max)
  | .circle c e => "CIRCLE" :: (pointWords f c ++ pointWords f e)

theorem words_last {word : List Char} (h : IsWord word) :
    words (word ++ [';']) = [String.ofList word] := by
  rw [words_append_mark rfl, List.append_nil, h.words_eq]

theorem words_pointText (f : NumberFormat) (p : Point) (rest : List Char) :
    words (pointText f p ++ rest) = numberText f p.x :: words (f.format p.y ++ rest) := by
  have htext : pointText f p ++ rest =
      [] ++ '(' :: (f.format p.x ++ ' ' :: (f.format p.y ++ ')' :: rest)) := by
    simp [pointText]
  have hy : words (f.format p.y ++ ')' :: rest) = words (f.format p.y ++ rest) :=
    words_append_mark rfl _ _
  rw [htext, words_append_mark rfl, List.nil_append, (isWord_format f p.x).words_append_blank, hy]
  rfl

theorem words_points (f : NumberFormat) (p q : Point) :
    words (pointText f p ++ ' ' :: pointText f q ++ [';']) = pointWords f p ++ pointWords f q := by
  rw [List.append_assoc, List.cons_append, words_pointText,
    (isWord_format f p.y).words_append_blank, words_pointText, words_last (isWord_format f q.y)]
  rfl

theorem words_keyword (start word : String) (hstart : start.toList = word.toList ++ [' '])
    (hword : word.toList.all fun c => !isMark c && c != ' ') (rest : List Char) :
    words (start.toList ++ rest) = word :: words rest := by
  have hisWord : IsWord word.toList := by
    intro c hc
    simpa using List.all_eq_true.1 hword c hc
  rw [hstart, List.append_assoc, List.singleton_append, hisWord.words_append_blank,
    String.ofList_toList]

theorem words_render (f : NumberFormat) (s : Statement) : words (s.render f) = s.wordsOf f := by
  cases s with
  | grid => rfl
  | layer id =>
    change words ("LAYER ".toList ++ Nat.toDigits 10 id.toNat ++ [';']) = _
    rw [List.append_assoc, words_keyword "LAYER " "LAYER" rfl rfl,
      words_last (isWord_toDigits id.toNat)]
    rfl
  | changeWidth w =>
    change words (("CHANGE ".toList ++ "WIDTH ".toList) ++ f.format w ++ [';']) = _
    rw [List.append_assoc, List.append_assoc, words_keyword "CHANGE " "CHANGE" rfl rfl,
      words_keyword "WIDTH " "WIDTH" rfl rfl, words_last (isWord_format f w)]
    rfl
  | rect r =>
    change words ("RECT ".toList ++ pointText f r.min ++ ' ' :: pointText f r.max ++ [';']) = _
    rw [List.append_assoc, List.append_assoc, ← List.append_assoc (pointText f r.min),
      words_keyword "RECT " "RECT" rfl rfl, words_points]
    rfl
  | circle c e =>
    change words ("CIRCLE ".toList ++ pointText f c ++ ' ' :: pointText f e ++ [';']) = _
    rw [List.append_assoc, List.append_assoc, ← List.append_assoc (pointText f c),
      words_keyword "CIRCLE " "CIRCLE" rfl rfl, words_points]
    rfl

end Statement

/-! ### Reading -/

/-- A statement as its line tells it, with numbers as they are written. -/
inductive Reading where
  | grid
  | layer (id : Layer)
  | changeWidth (width : String)
  | rect (x₁ y₁ x₂ y₂ : String)
  | circle (x y edgeX edgeY : String)
deriving DecidableEq

def Reading.ofWords? : List String → Option Reading
  | ["GRID", "mm", "1"] => some .grid
  | ["LAYER", id] => some (.layer (.ofNat (Nat.ofDigitChars 10 id.toList 0)))
  | ["CHANGE", "WIDTH", width] => some (.changeWidth width)
  | ["RECT", x₁, y₁, x₂, y₂] => some (.rect x₁ y₁ x₂ y₂)
  | ["CIRCLE", x, y, edgeX, edgeY] => some (.circle x y edgeX edgeY)
  | _ => none

/-- Reads a script line by line. Nothing stands behind the end of its last line. -/
def readLines (text : List Char) : List (Option Reading) :=
  (text.splitOn '\n').dropLast.map (Reading.ofWords? ∘ words)

namespace Statement

def reading (f : NumberFormat) : Statement → Reading
  | .grid => .grid
  | .layer id => .layer id
  | .changeWidth w => .changeWidth (numberText f w)
  | .rect r => .rect (numberText f r.min.x) (numberText f r.min.y) (numberText f r.max.x)
      (numberText f r.max.y)
  | .circle c e => .circle (numberText f c.x) (numberText f c.y) (numberText f e.x)
      (numberText f e.y)

theorem ofWords?_wordsOf (f : NumberFormat) (s : Statement) :
    Reading.ofWords? (s.wordsOf f) = some (s.reading f) := by
  cases s with
  | layer id =>
    have hid : Nat.ofDigitChars 10 (String.ofList (Nat.toDigits 10 id.toNat)).toList 0 =
        id.toNat := by
      rw [String.toList_ofList, Nat.ofDigitChars_ten_toDigits]
    rw [wordsOf, Reading.ofWords?, hid, UInt8.ofNat_toNat]
    rfl
  | grid => rfl
  | changeWidth w => rfl
  | rect r => rfl
  | circle c e => rfl

theorem readLines_renderAll (f : NumberFormat) (statements : List Statement) :
    readLines (renderAll f statements) = statements.map fun s => some (s.reading f) := by
  rw [readLines, splitOn_renderAll, List.dropLast_concat, List.map_map]
  refine List.map_congr_left fun s _ => ?_
  rw [Function.comp_apply, Function.comp_apply, words_render, ofWords?_wordsOf]

def SamePoint (f : NumberFormat) (p q : Point) : Prop :=
  f.format p.x = f.format q.x ∧ f.format p.y = f.format q.y

/-- Statements of one kind on one layer whose numbers are written alike. -/
inductive Alike (f : NumberFormat) : Statement → Statement → Prop
  | grid : Alike f .grid .grid
  | layer (id : Layer) : Alike f (.layer id) (.layer id)
  | changeWidth {v w : Binary64} (h : f.format v = f.format w) :
    Alike f (.changeWidth v) (.changeWidth w)
  | rect {r s : Rect} (hmin : SamePoint f r.min s.min) (hmax : SamePoint f r.max s.max) :
    Alike f (.rect r) (.rect s)
  | circle {c d e g : Point} (hcentre : SamePoint f c d) (hedge : SamePoint f e g) :
    Alike f (.circle c e) (.circle d g)

theorem pointText_eq_of_samePoint {f : NumberFormat} {p q : Point} (h : SamePoint f p q) :
    pointText f p = pointText f q := by
  rw [pointText, pointText, h.1, h.2]

theorem Alike.render_eq {f : NumberFormat} {s t : Statement} (h : Alike f s t) :
    s.render f = t.render f := by
  unfold render
  cases h with
  | grid => rfl
  | layer id => rfl
  | changeWidth h => simp only [h]
  | rect hmin hmax =>
    simp only [pointText_eq_of_samePoint hmin, pointText_eq_of_samePoint hmax]
  | circle hcentre hedge =>
    simp only [pointText_eq_of_samePoint hcentre, pointText_eq_of_samePoint hedge]

theorem numberText_inj {f : NumberFormat} {x y : Binary64} :
    numberText f x = numberText f y ↔ f.format x = f.format y :=
  String.ofList_inj

theorem alike_of_reading_eq {f : NumberFormat} {s t : Statement} (h : s.reading f = t.reading f) :
    Alike f s t := by
  cases s <;> cases t <;>
    simp only [reading, reduceCtorEq, Reading.layer.injEq, Reading.changeWidth.injEq,
      Reading.rect.injEq, Reading.circle.injEq, numberText_inj] at h
  case grid.grid => exact .grid
  case layer.layer =>
    rw [h]
    exact .layer _
  case changeWidth.changeWidth => exact .changeWidth h
  case rect.rect =>
    obtain ⟨hx₁, hy₁, hx₂, hy₂⟩ := h
    exact .rect ⟨hx₁, hy₁⟩ ⟨hx₂, hy₂⟩
  case circle.circle =>
    obtain ⟨hx, hy, hedgeX, hedgeY⟩ := h
    exact .circle ⟨hx, hy⟩ ⟨hedgeX, hedgeY⟩

theorem renderAll_eq_of_alike {f : NumberFormat} {xs ys : List Statement}
    (h : List.Forall₂ (Alike f) xs ys) : renderAll f xs = renderAll f ys := by
  induction h with
  | nil => rfl
  | cons hhead _ ih => rw [renderAll_cons, renderAll_cons, line, line, hhead.render_eq, ih]

/-- Two lists of statements have one text exactly if they are alike, statement by
statement. A reader who takes a script line by line learns of every statement its kind,
its layer and its numbers as they are written, and nothing that is not there. -/
theorem renderAll_unambiguous (f : NumberFormat) (xs ys : List Statement) :
    (renderAll f xs = renderAll f ys ↔ List.Forall₂ (Alike f) xs ys) ∧
      readLines (renderAll f xs) = xs.map fun s => some (s.reading f) := by
  refine ⟨⟨fun h => ?_, renderAll_eq_of_alike⟩, readLines_renderAll f xs⟩
  have hread : xs.map (fun s => some (s.reading f)) = ys.map fun s => some (s.reading f) := by
    rw [← readLines_renderAll, h, readLines_renderAll]
  rw [← List.forall₂_eq_eq_eq, List.forall₂_map_left_iff, List.forall₂_map_right_iff] at hread
  exact hread.imp fun s t hst => alike_of_reading_eq (Option.some.inj hst)

end Statement

end CarrierTape
