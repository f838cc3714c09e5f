import CarrierTape.FileTree
import CarrierTape.Proofs.Except
import Mathlib.Data.List.DropRight

/-!
What writing a file does to a tree. The path that was written leads to the new content
(`find_of_write`), and no other place has changed (`lookup_of_write`). For the first of
these the way to the file must still be there, which it is because it leads through
directories only, and no directory is ever written over. Directories are also all that
decides where a path may be written (`target_mono`).
-/

namespace CarrierTape

theorem splitOnAux_ne_nil (s sep : String) (b i j : String.Pos.Raw) (r : List String) :
    s.splitOnAux sep b i j r ≠ [] := by
  fun_induction String.splitOnAux s sep b i j r with
  | _ => simp_all

namespace FileTree

variable {t after : FileTree} {path : String} {place : Place}

theorem parts_ne_nil (path : String) : parts path ≠ [] := by
  have hsplit : path.splitOn "/" ≠ [] := by
    rw [String.splitOn, if_neg (by decide)]
    exact splitOnAux_ne_nil path "/" 0 0 0 []
  unfold parts
  split
  · exact List.cons_ne_nil _ _
  · exact hsplit

theorem step_name {here : Place} {name : String} (hempty : name ≠ "") (hdot : name ≠ ".")
    (hdots : name ≠ "..") : step here name = here ++ [name] := by
  simp [step, hempty, hdot, hdots]

/-! ### Text -/

theorem decodeContent_toUTF8 (text : String) : decodeContent text.toUTF8 = .ok text := by
  have hvalid : text.toUTF8.IsValidUTF8 := text.isValidUTF8
  unfold decodeContent String.fromUTF8?
  rw [dif_pos hvalid]
  rfl

theorem readText_of_find {text : String} (h : t.find path = .ok (.file text.toUTF8)) :
    t.readText path = .ok text := by
  rw [readText, h]
  exact decodeContent_toUTF8 text

/-! ### Walking -/

theorem checkDirectory_eq_ok_iff {here : Place} :
    t.checkDirectory here = .ok () ↔ t.lookup here = some .directory := by
  unfold checkDirectory
  cases t.lookup here with
  | none => simp
  | some node => cases node <;> simp

theorem walk_cons_eq_ok_iff {here there : Place} {part : String} {rest : List String} :
    t.walk here (part :: rest) = .ok there ↔
      t.lookup here = some .directory ∧ checkSize maxNameBytes part = .ok () ∧
        t.walk (step here part) rest = .ok there := by
  simp only [walk, bind_eq_ok_iff, ← checkDirectory_eq_ok_iff]
  constructor
  · rintro ⟨_, hhere, _, hpart, hrest⟩
    exact ⟨hhere, hpart, hrest⟩
  · rintro ⟨hhere, hpart, hrest⟩
    exact ⟨_, hhere, _, hpart, hrest⟩

theorem walk_append_eq_ok {front back : List String} :
    ∀ {here middle there : Place}, t.walk here front = .ok middle → t.walk middle back = .ok there →
      t.walk here (front ++ back) = .ok there := by
  induction front with
  | nil =>
    rintro here middle there ⟨⟩ hback
    exact hback
  | cons part rest ih =>
    intro here middle there hfront hback
    rw [walk_cons_eq_ok_iff] at hfront
    rw [List.cons_append, walk_cons_eq_ok_iff]
    exact ⟨hfront.1, hfront.2.1, ih hfront.2.2 hback⟩

theorem walk_mono {t' : FileTree}
    (h : ∀ place, t.lookup place = some .directory → t'.lookup place = some .directory)
    (path : List String) : ∀ {here there : Place}, t.walk here path = .ok there →
      t'.walk here path = .ok there := by
  induction path with
  | nil =>
    rintro here there ⟨⟩
    rfl
  | cons part rest ih =>
    intro here there hwalk
    rw [walk_cons_eq_ok_iff] at hwalk ⊢
    exact ⟨h here hwalk.1, hwalk.2.1, ih hwalk.2.2⟩

/-! ### Where a path may be written -/

theorem ne_empty_of_namedParts {name : String} {front : List String}
    (h : namedParts path = front ++ [name]) : name ≠ "" := by
  have hdrop : (parts path).rdropWhile (· == "") = front ++ [name] := h
  have hlast := List.rdropWhile_last_not (· == "") (parts path) (by simp [hdrop])
  simpa only [hdrop, List.getLast_append_singleton, beq_iff_eq] using hlast

theorem namedParts_eq_parts {name : String} {front : List String}
    (h : parts path = front ++ [name]) (hname : name ≠ "") : namedParts path = parts path := by
  change (parts path).rdropWhile (· == "") = parts path
  rw [h]
  exact List.rdropWhile_concat_neg _ _ _ (by simpa using hname)

/-- What it takes to write to a path: its last part is a name in a directory that the
parts before it lead to, and no directory has this name. -/
theorem target_eq_ok_iff :
    t.target path = .ok place ↔
      ∃ front name here, parts path = front ++ [name] ∧ checkSize maxPathBytes path = .ok () ∧
        t.walk [] front = .ok here ∧ t.lookup here = some .directory ∧
        (name ≠ "" ∧ name ≠ "." ∧ name ≠ "..") ∧ checkSize maxNameBytes name = .ok () ∧
        here ++ [name] = place ∧ t.lookup place ≠ some .directory := by
  obtain ⟨front, name, hparts⟩ := (parts path).eq_nil_or_concat.resolve_left (parts_ne_nil path)
  rw [List.concat_eq_append] at hparts
  unfold target
  simp only [bind_eq_ok_iff, ← checkDirectory_eq_ok_iff]
  constructor
  · rintro ⟨_, hpath, here, hwalk, _, hhere, h⟩
    split_ifs at h with hwrong
    · obtain ⟨_, hthrow, -⟩ := bind_eq_ok_iff.1 h
      cases hthrow
    · obtain ⟨_, hsize, h⟩ := bind_eq_ok_iff.1 h
      simp only [not_or, not_not] at hwrong
      obtain ⟨hnamed, hdot, hdots⟩ := hwrong
      have hempty := ne_empty_of_namedParts (hnamed.trans hparts)
      simp only [hnamed, hparts, List.dropLast_concat, List.getLastD_concat] at *
      split at h
      · cases h
      · rename_i hfree
        cases h
        exact ⟨front, name, here, rfl, hpath, hwalk, hhere, ⟨hempty, hdot, hdots⟩, hsize, rfl,
          hfree⟩
  · rintro ⟨front', name', here, hparts', hpath, hwalk, hhere, ⟨hempty, hdot, hdots⟩, hsize,
      rfl, hfree⟩
    obtain ⟨rfl, hname⟩ := List.append_inj' (hparts.symm.trans hparts') rfl
    obtain rfl := List.singleton_inj.1 hname
    have hnamed := namedParts_eq_parts hparts hempty
    refine ⟨_, hpath, here, ?_, _, hhere, ?_⟩
    · rw [hnamed, hparts, List.dropLast_concat]
      exact hwalk
    · simp only [hnamed, hparts, List.getLastD_concat, hdot, hdots, ne_eq, not_true_eq_false,
        or_self, if_false]
      exact bind_eq_ok_iff.2 ⟨_, hsize, rfl⟩

/-- Where a path may be written depends on the directories only. -/
theorem target_mono {t' : FileTree}
    (h : ∀ place, t.lookup place = some .directory ↔ t'.lookup place = some .directory)
    (htarget : t.target path = .ok place) : t'.target path = .ok place := by
  obtain ⟨front, name, here, hparts, hpath, hwalk, hhere, hname, hsize, hplace, hfree⟩ :=
    target_eq_ok_iff.1 htarget
  exact target_eq_ok_iff.2 ⟨front, name, here, hparts, hpath, walk_mono (fun _ => (h _).1) _ hwalk,
    (h here).1 hhere, hname, hsize, hplace, fun hdir => hfree ((h place).2 hdir)⟩

/-! ### Writing -/

/-- The tree with one more node, which hides what was at its place. -/
def put (t : FileTree) (place : Place) (node : Node) : FileTree :=
  ⟨(place, node) :: t.nodes⟩

theorem write_eq_ok_iff {content : ByteArray} :
    t.write path content = .ok after ↔
      ∃ place, t.target path = .ok place ∧ t.put place (.file content) = after := by
  simp [write, bind_eq_ok_iff, put, pure, Except.pure]

theorem lookup_put_of_ne {other : Place} (h : other ≠ place) (node : Node) :
    (t.put place node).lookup other = t.lookup other := by
  simp [put, lookup, h.symm]

theorem lookup_put_self (h : t.lookup place ≠ some .directory) (node : Node) :
    (t.put place node).lookup place = some node := by
  unfold lookup at h ⊢
  split_ifs at h ⊢
  · exact absurd rfl h
  · simp [put]

theorem lookup_put_directory (h : t.lookup place ≠ some .directory) (node : Node) {other : Place}
    (hother : t.lookup other = some .directory) :
    (t.put place node).lookup other = some .directory := by
  have hne : other ≠ place := by
    rintro rfl
    exact h hother
  rw [lookup_put_of_ne hne, hother]

theorem find_of_write {content : ByteArray} (h : t.write path content = .ok after) :
    after.find path = .ok (.file content) := by
  obtain ⟨place, htarget, rfl⟩ := write_eq_ok_iff.1 h
  obtain ⟨front, name, here, hparts, hpath, hwalk, hhere, hname, hsize, rfl, hplace⟩ :=
    target_eq_ok_iff.1 htarget
  have hway : t.walk [] (parts path) = .ok (here ++ [name]) := by
    rw [hparts]
    refine walk_append_eq_ok hwalk ?_
    rw [walk_cons_eq_ok_iff, step_name hname.1 hname.2.1 hname.2.2]
    exact ⟨hhere, hsize, rfl⟩
  have hwayAfter := walk_mono (fun _ => lookup_put_directory hplace (.file content)) _ hway
  unfold find
  simp only [hpath, hwayAfter, bind, Except.bind, lookup_put_self hplace]
  rfl

theorem lookup_of_write {content : ByteArray} (h : t.write path content = .ok after) :
    ∃ place, t.target path = .ok place ∧
      ∀ other, other ≠ place → after.lookup other = t.lookup other := by
  obtain ⟨place, htarget, rfl⟩ := write_eq_ok_iff.1 h
  exact ⟨place, htarget, fun other hother => lookup_put_of_ne hother _⟩

end FileTree

end CarrierTape
