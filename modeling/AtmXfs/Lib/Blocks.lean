import Mathlib.Data.List.Basic
import Mathlib.Data.List.TakeWhile

namespace Blocks

abbrev Line := List Char

/-- Lines joined with line feeds. -/
def unlines (ls : List Line) : List Char := ['\n'].intercalate ls

def lines (text : List Char) : List Line := text.splitOn '\n'

/-- What stands between the line that opens a block and the line that closes it. -/
def block (first last : Line) (ls : List Line) : List Line :=
  ((ls.dropWhile (· ≠ first)).drop 1).takeWhile (· ≠ last)

/-- A line made of two parts, each with its own end. -/
structure Template where
  start : List Char
  stop : Char
  middle : List Char
  stop' : Char
  last : List Char

namespace Template

def write (t : Template) (a b : List Char) : Line :=
  t.start ++ (a ++ t.stop :: (t.middle ++ (b ++ t.stop' :: t.last)))

/-- The two parts of a line of this shape. -/
def read (t : Template) (l : Line) : Option (List Char × List Char) :=
  let a := (l.drop t.start.length).takeWhile (· ≠ t.stop)
  let rest := l.drop (t.start.length + a.length + 1 + t.middle.length)
  let b := rest.takeWhile (· ≠ t.stop')
  if l = t.write a b then some (a, b) else none

/-- A line that was put together of five texts. -/
theorem append_eq_write (t : Template) {m l : List Char} (hm : m = t.stop :: t.middle)
    (hl : l = t.stop' :: t.last) (a b : List Char) : t.start ++ a ++ m ++ b ++ l = t.write a b := by
  rw [hm, hl, write]
  simp only [List.append_assoc, List.cons_append]

theorem read_write (t : Template) {a b : List Char} (ha : t.stop ∉ a) (hb : t.stop' ∉ b) :
    t.read (t.write a b) = some (a, b) := by
  have htake : ∀ (c : Char) (s rest : List Char), c ∉ s →
      (s ++ c :: rest).takeWhile (· ≠ c) = s := by
    intro c s rest hs
    have hall : ∀ d ∈ s, decide (d ≠ c) = true := fun d hd =>
      decide_eq_true fun heq => hs (heq ▸ hd)
    rw [List.takeWhile_append_of_pos hall, List.takeWhile_cons_of_neg (by simp), List.append_nil]
  have hfirst : ((t.write a b).drop t.start.length).takeWhile (· ≠ t.stop) = a := by
    rw [write, List.drop_left, htake t.stop a _ ha]
  have hlength : t.start.length + a.length + 1 + t.middle.length =
      (t.start ++ (a ++ t.stop :: t.middle)).length := by simp; omega
  have hsecond : (t.write a b).drop (t.start.length + a.length + 1 + t.middle.length) =
      b ++ t.stop' :: t.last := by
    have hparts : t.write a b =
        (t.start ++ (a ++ t.stop :: t.middle)) ++ (b ++ t.stop' :: t.last) := by simp [write]
    rw [hparts, hlength, List.drop_left]
  simp only [read, hfirst, hsecond, htake t.stop' b _ hb, if_true]

/-- Two shapes that start differently have no line in common. -/
theorem write_ne {t t' : Template} (n : Nat) (h : t.start.take n ≠ t'.start.take n)
    (hn : n ≤ t.start.length ∧ n ≤ t'.start.length) (a b a' b' : List Char) :
    t.write a b ≠ t'.write a' b' := by
  intro heq
  have htake := congrArg (List.take n) heq
  rw [write, write, List.take_append_of_le_length hn.1, List.take_append_of_le_length hn.2] at htake
  exact h htake

/-- Only lines of the shape are read. -/
theorem read_eq_none (t : Template) {l : Line} (h : ∀ a b, l ≠ t.write a b) :
    t.read l = none := if_neg (h _ _)

/-- A line that starts with another character than the shape does is not read. -/
theorem read_of_head (t : Template) {l : Line} {c : Char} (hc : t.start.head? = some c)
    (hl : l.head? ≠ some c) : t.read l = none := by
  refine t.read_eq_none fun a b heq => hl ?_
  rw [heq, write, List.head?_append, hc]
  rfl

end Template

theorem unlines_cons_cons (l l' : Line) (ls : List Line) :
    unlines (l :: l' :: ls) = l ++ '\n' :: unlines (l' :: ls) := by
  simp [unlines, List.intercalate, List.intersperse]

theorem lines_unlines_cons (l : Line) {ls : List Line} (h : ls ≠ []) :
    lines (unlines (l :: ls)) = lines l ++ lines (unlines ls) := by
  cases ls with
  | nil => exact absurd rfl h
  | cons l' ls =>
    rw [unlines_cons_cons]
    exact List.splitOn_append_cons_self ..

theorem lines_unlines {ls : List Line} (hne : ls ≠ []) (h : ∀ l ∈ ls, '\n' ∉ l) :
    lines (unlines ls) = ls := List.splitOn_intercalate '\n' h hne

/-- A block is read back when its opening line does not come before it, nor its closing line within
it. -/
theorem block_eq {first last : Line} {before body : List Line} (after : List Line)
    (hbefore : first ∉ before) (hbody : last ∉ body) :
    block first last (before ++ first :: (body ++ last :: after)) = body := by
  have hopens : ∀ l ∈ before, decide (l ≠ first) = true := fun l hl =>
    decide_eq_true fun heq => hbefore (heq ▸ hl)
  have hcloses : ∀ l ∈ body, decide (l ≠ last) = true := fun l hl =>
    decide_eq_true fun heq => hbody (heq ▸ hl)
  have hdrop : (before ++ first :: (body ++ last :: after)).dropWhile (· ≠ first) =
      first :: (body ++ last :: after) := by
    rw [List.dropWhile_append_of_pos hopens, List.dropWhile_cons_of_neg (by simp)]
  rw [block, hdrop, List.drop_one, List.tail_cons, List.takeWhile_append_of_pos hcloses,
    List.takeWhile_cons_of_neg (by simp), List.append_nil]

end Blocks
