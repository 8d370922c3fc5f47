import Mathlib.Data.List.TakeWhile
import Mathlib.Data.Set.Basic
import Mathlib.Order.Monotone.Basic
import Reckoner.Script.Outline

/-!
# Scripts line by line

The lines of a text whose front ends a line are those of the front and those of the rest, and the
items of lines are the items of their parts, where a part ends at a line that is not deeper. The
numbers of the lines play no role in this: a text that comes further down has the same items, with
the numbers shifted.
-/

namespace Reckoner

namespace Text

lemma linesAfter_append (line front rest : List Char) :
    linesAfter line (front ++ '\n' :: rest) = linesAfter line (front ++ ['\n']) ++ lines rest := by
  induction front generalizing line with
  | nil => simp [linesAfter, lines]
  | cons c front ih =>
    simp only [List.cons_append, linesAfter]
    split
    · rw [ih, List.cons_append]
    · exact ih (c :: line)

lemma lines_append (front rest : List Char) :
    lines (front ++ '\n' :: rest) = lines (front ++ ['\n']) ++ lines rest :=
  linesAfter_append [] front rest

end Text

namespace Script

variable {line : Line} {lines deeper rest : List Line} {number k : Nat}

/-! ### Lines of code -/

lemma codeLinesFrom_append (number : Nat) (raws raws' : List (List Char)) :
    codeLinesFrom number (raws ++ raws')
      = codeLinesFrom number raws ++ codeLinesFrom (number + raws.length) raws' := by
  induction raws generalizing number with
  | nil => simp [codeLinesFrom]
  | cons raw raws ih =>
    simp only [List.cons_append, codeLinesFrom, ih, List.length_cons]
    rw [Nat.add_right_comm, Nat.add_assoc number]
    split
    · rfl
    · rfl

/-- The line with its number shifted. -/
def Line.shift (k : Nat) (line : Line) : Line :=
  { line with number := line.number + k }

@[simp] lemma Line.indent_shift (k : Nat) (line : Line) : (line.shift k).indent = line.indent := rfl

@[simp] lemma Line.text_shift (k : Nat) (line : Line) : (line.shift k).text = line.text := rfl

lemma codeLinesFrom_shift (number k : Nat) (raws : List (List Char)) :
    codeLinesFrom (number + k) raws = (codeLinesFrom number raws).map (Line.shift k) := by
  induction raws generalizing number with
  | nil => rfl
  | cons raw raws ih =>
    simp only [codeLinesFrom]
    rw [Nat.add_right_comm, ih]
    split
    · rfl
    · rfl

/-! ### Items -/

@[simp] lemma outline_nil : outline [] = [] := by
  simp [outline]

/-- An item holds the deeper lines, up to the first that is not. -/
lemma outline_cons (hdeeper : ∀ l ∈ deeper, line.indent < l.indent)
    (hrest : ∀ l ∈ rest.head?, l.indent ≤ line.indent) :
    outline (line :: (deeper ++ rest)) = .mk line (outline deeper) :: outline rest := by
  have hstop : rest.takeWhile (fun l => line.indent < l.indent) = []
      ∧ rest.dropWhile (fun l => line.indent < l.indent) = rest := by
    cases rest with
    | nil => simp
    | cons l rest => simp [Nat.not_lt.2 (hrest l rfl)]
  have hgo : ∀ l ∈ deeper, decide (line.indent < l.indent) = true := by simpa using hdeeper
  rw [outline, List.takeWhile_append_of_pos hgo, List.dropWhile_append_of_pos hgo, hstop.1, hstop.2,
    List.append_nil]

/-- Lines are taken apart as their outline is: the deeper ones behind the first, and the rest. -/
lemma blockInduction {P : List Line → Prop} (nil : P [])
    (cons : ∀ line deeper rest, (∀ l ∈ deeper, line.indent < l.indent) →
      (∀ l ∈ rest.head?, l.indent ≤ line.indent) → P deeper → P rest → P (line :: (deeper ++ rest)))
    (lines : List Line) : P lines := by
  induction lines using outline.induct with
  | case1 => exact nil
  | case2 line behind _ _ ihDeeper ihRest =>
    rw [← List.takeWhile_append_dropWhile (p := fun l => line.indent < l.indent) (l := behind)]
    apply cons line _ _ _ _ ihDeeper ihRest
    · intro l hl
      simpa using List.mem_takeWhile_imp hl
    · intro l hl
      have hstop := List.head?_dropWhile_not (p := fun l : Line => decide (line.indent < l.indent))
        behind
      rw [hl] at hstop
      simpa using hstop

/-- Lines that start with one that is not deeper than any before it are on their own. -/
lemma outline_append (h : ∀ l ∈ rest.head?, ∀ l' ∈ lines, l.indent ≤ l'.indent) :
    outline (lines ++ rest) = outline lines ++ outline rest := by
  induction lines using blockInduction with
  | nil => simp
  | cons line deeper behind hdeeper hbehind _ ih =>
    have hnext : ∀ l ∈ (behind ++ rest).head?, l.indent ≤ line.indent := by
      cases behind with
      | nil => exact fun l hl => h l hl line List.mem_cons_self
      | cons l behind => exact hbehind
    have hrest := ih fun l hl l' hl' => h l hl l' (by simp [hl'])
    rw [outline_cons hdeeper hbehind, List.cons_append, List.cons_append, List.append_assoc,
      outline_cons hdeeper hnext, hrest]

/-! ### Lines in other places -/

/-- What becomes of the numbers and of the indentations of lines that are moved. -/
structure Placement where
  number : Nat → Nat
  indent : Nat → Nat

/-- The line in another place. -/
def Line.place (p : Placement) (line : Line) : Line :=
  ⟨p.number line.number, p.indent line.indent, line.text⟩

@[simp] lemma Line.number_place (p : Placement) (line : Line) :
    (line.place p).number = p.number line.number := rfl

@[simp] lemma Line.indent_place (p : Placement) (line : Line) :
    (line.place p).indent = p.indent line.indent := rfl

@[simp] lemma Line.text_place (p : Placement) (line : Line) : (line.place p).text = line.text := rfl

/-- The item with all lines in other places. -/
def Item.place (p : Placement) : Item → Item
  | mk line body => mk (line.place p) (body.map (place p))

@[simp] lemma Item.place_mk (p : Placement) (line : Line) (body : List Item) :
    (mk line body).place p = mk (line.place p) (body.map (place p)) := by
  rw [place]

@[simp] lemma Item.line_place (p : Placement) (item : Item) :
    (item.place p).line = item.line.place p := by
  cases item
  simp [line]

@[simp] lemma Item.body_place (p : Placement) (item : Item) :
    (item.place p).body = item.body.map (place p) := by
  cases item
  simp [body]

/-- Lines keep their items if those of them that are deeper than others stay so. -/
lemma outline_place {p : Placement} {depths : Set Nat} (hp : StrictMonoOn p.indent depths)
    (hlines : ∀ l ∈ lines, l.indent ∈ depths) :
    outline (lines.map (Line.place p)) = (outline lines).map (Item.place p) := by
  induction lines using blockInduction with
  | nil => simp
  | cons line deeper rest hdeeper hrest ihDeeper ihRest =>
    obtain ⟨hline, hothers⟩ := List.forall_mem_cons.1 hlines
    obtain ⟨hlinesDeeper, hlinesRest⟩ := List.forall_mem_append.1 hothers
    rw [outline_cons hdeeper hrest, List.map_cons, List.map_append, outline_cons,
      ihDeeper hlinesDeeper, ihRest hlinesRest]
    · simp
    · intro placed hplaced
      obtain ⟨l, hl, rfl⟩ := List.mem_map.1 hplaced
      exact hp hline (hlinesDeeper l hl) (hdeeper l hl)
    · intro placed hplaced
      rw [List.head?_map, Option.mem_def, Option.map_eq_some_iff] at hplaced
      obtain ⟨l, hl, rfl⟩ := hplaced
      exact (hp.le_iff_le (hlinesRest l (List.mem_of_mem_head? hl)) hline).2 (hrest l hl)

/-- Lines that come so many lines later. -/
def Placement.shift (k : Nat) : Placement :=
  ⟨(· + k), id⟩

/-- The item with the numbers of all lines shifted. -/
def Item.shift (k : Nat) : Item → Item
  | mk line body => mk (line.shift k) (body.map (shift k))

lemma Item.shift_mk (k : Nat) (line : Line) (body : List Item) :
    (mk line body).shift k = mk (line.shift k) (body.map (shift k)) := by
  rw [shift]

lemma Item.shift_eq_place (k : Nat) (item : Item) : item.shift k = item.place (.shift k) := by
  match item with
  | mk line body =>
    rw [shift_mk, place_mk]
    congr 1
    exact List.map_congr_left fun item _ => shift_eq_place k item
termination_by item

@[simp] lemma Item.line_shift (k : Nat) (item : Item) :
    (item.shift k).line = item.line.shift k := by
  rw [shift_eq_place, line_place]
  rfl

lemma outline_shift (k : Nat) (lines : List Line) :
    outline (lines.map (Line.shift k)) = (outline lines).map (Item.shift k) := by
  rw [List.map_congr_left fun item _ => Item.shift_eq_place k item,
    ← outline_place (p := .shift k) (strictMono_id.strictMonoOn Set.univ) fun _ _ => Set.mem_univ _]
  rfl

end Script

end Reckoner
