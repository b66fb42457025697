import Mathlib.Data.List.TakeDrop
import Mathlib.Data.List.TakeWhile
import Pipework.Text.Lines

/-!
# Lines and their ends

The lines of a text (`Text.lines`) are cut off after each line feed. Folding writes every line end as a line
feed, which changes a text just if there is a carriage return in it (`Text.foldLineEnds_eq_self_iff`). Once
their ends are taken off, the lines are the same as without folding just if each carriage return stands before
a line feed (`Text.map_chomp_lines_foldLineEnds_iff`).
-/

namespace Pipework

namespace Text

/-! ## Folding line ends -/

/-- A text with its line ends folded, read from a moment at which the rune before was a return or not. -/
def foldFrom (afterReturn : Bool) : Text → Text
  | [] => []
  | r :: rest => (foldLineEnd afterReturn r).2 ++ foldFrom (foldLineEnd afterReturn r).1 rest

/-- One step of folding, with what is folded so far in reverse. -/
private def foldStep (state : Bool × Text) (r : Rune) : Bool × Text :=
  ((foldLineEnd state.1 r).1, (foldLineEnd state.1 r).2.reverseAux state.2)

theorem foldLineEnds_eq (t : Text) : t.foldLineEnds = foldFrom false t := by
  have general (t : Text) (after : Bool) (out : Text) :
      (t.foldl foldStep (after, out)).2.reverse = out.reverse ++ foldFrom after t := by
    induction t generalizing after out with
    | nil => simp [foldFrom]
    | cons r rest ih =>
      rw [List.foldl_cons, foldStep, ih, foldFrom, List.reverseAux_eq]
      simp
  exact general t false []

private theorem foldLineEnd_fst (after : Bool) (r : Rune) :
    (foldLineEnd after r).1 = decide (r = .char '\r') := by
  unfold foldLineEnd
  split
  · simp [*]
  · split <;> simp [*]

private theorem foldLineEnd_length (after : Bool) (r : Rune) : (foldLineEnd after r).2.length ≤ 1 := by
  unfold foldLineEnd
  split
  · simp
  · split
    · cases after <;> simp
    · simp

private theorem foldFrom_append (after : Bool) (t u : Text) : foldFrom after (t ++ u) =
    foldFrom after t ++ foldFrom (t.getLast?.elim after fun r => decide (r = .char '\r')) u := by
  induction t generalizing after with
  | nil => rfl
  | cons r rest ih =>
    rw [List.cons_append, foldFrom, foldFrom, ih, List.append_assoc, foldLineEnd_fst, List.getLast?_cons]
    cases rest.getLast? <;> rfl

private theorem foldFrom_true {u : Text} (head : u.head? ≠ some (.char '\n')) :
    foldFrom true u = foldFrom false u := by
  cases u with
  | nil => rfl
  | cons r rest =>
    have other : r ≠ .char '\n' := fun same => head (by rw [same, List.head?_cons])
    rw [foldFrom, foldFrom]
    simp [foldLineEnd, other]

/-- Two texts are folded apart from each other, unless a return meets a feed between them. -/
theorem foldLineEnds_append {t u : Text}
    (apart : t.getLast? ≠ some (.char '\r') ∨ u.head? ≠ some (.char '\n')) :
    (t ++ u).foldLineEnds = t.foldLineEnds ++ u.foldLineEnds := by
  rw [foldLineEnds_eq, foldLineEnds_eq, foldLineEnds_eq, foldFrom_append]
  congr 1
  cases last : t.getLast? with
  | none => rfl
  | some r =>
    by_cases isReturn : r = .char '\r'
    · subst isReturn
      exact foldFrom_true (apart.resolve_left (absurd last))
    · simp [isReturn]

theorem foldLineEnds_length (t : Text) : t.foldLineEnds.length ≤ t.length := by
  have general (t : Text) (after : Bool) : (foldFrom after t).length ≤ t.length := by
    induction t generalizing after with
    | nil => exact Nat.le_refl 0
    | cons r rest ih =>
      have one := foldLineEnd_length after r
      have others := ih (foldLineEnd after r).1
      rw [foldFrom, List.length_append, List.length_cons]
      omega
  rw [foldLineEnds_eq]
  exact general t false

theorem foldLineEnds_eq_self {t : Text} (none : .char '\r' ∉ t) : t.foldLineEnds = t := by
  rw [foldLineEnds_eq]
  induction t with
  | nil => rfl
  | cons r rest ih =>
    rw [List.mem_cons, not_or] at none
    have isOther : r ≠ .char '\r' := Ne.symm none.1
    rw [foldFrom, foldLineEnd_fst]
    simp only [isOther, decide_false, ih none.2]
    by_cases isFeed : r = .char '\n' <;> simp [foldLineEnd, isFeed, isOther]

theorem return_notMem_foldLineEnds (t : Text) : .char '\r' ∉ t.foldLineEnds := by
  have general (t : Text) (after : Bool) : .char '\r' ∉ foldFrom after t := by
    induction t generalizing after with
    | nil => exact List.not_mem_nil
    | cons r rest ih =>
      rw [foldFrom, List.mem_append, not_or]
      refine ⟨?_, ih _⟩
      unfold foldLineEnd
      split
      · simp
      · next isOther =>
        split
        · cases after <;> simp
        · simpa using Ne.symm isOther
  rw [foldLineEnds_eq]
  exact general t false

/-- Folding changes a text just if there is a carriage return in it. -/
theorem foldLineEnds_eq_self_iff {t : Text} : t.foldLineEnds = t ↔ .char '\r' ∉ t :=
  ⟨fun same => same ▸ return_notMem_foldLineEnds t, foldLineEnds_eq_self⟩

/-! ## Lines -/

/-- The lines of a text, each with its line feed, which the last one may lack. -/
def lines (t : Text) : List Text := splitAfter (· == .char '\n') t

/-- The first line is cut off after the first line feed. -/
theorem lines_line {line : Text} (noFeed : .char '\n' ∉ line) (rest : Text) :
    lines (line ++ .char '\n' :: rest) = (line ++ [.char '\n']) :: rest.lines := by
  induction line with
  | nil => rfl
  | cons r line ih =>
    rw [List.mem_cons, not_or] at noFeed
    have isOther : (r == .char '\n') = false := by simpa using Ne.symm noFeed.1
    have later := ih noFeed.2
    rw [lines, splitAfter] at later ⊢
    rw [List.cons_append, List.foldr_cons, later, if_neg (by simp [isOther])]
    rfl

theorem lines_last {t : Text} (noFeed : .char '\n' ∉ t) (some : t ≠ []) : t.lines = [t] := by
  induction t with
  | nil => exact absurd rfl some
  | cons r rest ih =>
    rw [List.mem_cons, not_or] at noFeed
    have isOther : (r == .char '\n') = false := by simpa using Ne.symm noFeed.1
    rw [lines, splitAfter, List.foldr_cons, if_neg (by simp [isOther])]
    cases rest with
    | nil => rfl
    | cons q others =>
      have later := ih noFeed.2 (by simp)
      rw [lines, splitAfter] at later
      rw [later]

/-- A text is its first line and the rest, or it has no line feed. -/
theorem line_cases (t : Text) :
    .char '\n' ∉ t ∨ ∃ line rest, .char '\n' ∉ line ∧ t = line ++ .char '\n' :: rest := by
  by_cases feed : .char '\n' ∈ t
  · obtain ⟨line, rest, same, noFeed⟩ := List.eq_append_cons_of_mem feed
    exact .inr ⟨line, rest, noFeed, same⟩
  · exact .inl feed

theorem splitLine?_line {line : Text} (noFeed : .char '\n' ∉ line) (rest : Text) :
    splitLine? (line ++ .char '\n' :: rest) = some (line ++ [.char '\n'], rest) := by
  have none : ∀ r ∈ line, (r != .char '\n') = true := fun r member =>
    bne_iff_ne.mpr fun same => noFeed (same ▸ member)
  rw [splitLine?, List.span_eq_takeWhile_dropWhile, List.takeWhile_append_of_pos none,
    List.dropWhile_append_of_pos none]
  simp

theorem splitLine?_none {t : Text} (noFeed : .char '\n' ∉ t) : t.splitLine? = none := by
  have none : ∀ r ∈ t, (r != .char '\n') = true := fun r member =>
    bne_iff_ne.mpr fun same => noFeed (same ▸ member)
  have rest : t.dropWhile (· != .char '\n') = [] := List.dropWhile_eq_nil_iff.mpr none
  rw [splitLine?, List.span_eq_takeWhile_dropWhile, rest]

theorem flatten_lines (t : Text) : t.lines.flatten = t := by
  induction length : t.length using Nat.strongRecOn generalizing t with
  | _ n ih =>
    subst length
    rcases t.line_cases with noFeed | ⟨line, rest, noFeed, rfl⟩
    · by_cases empty : t = []
      · subst empty
        rfl
      · simp [lines_last noFeed empty]
    · have shorter : rest.length < (line ++ .char '\n' :: rest).length := by
        simp only [List.length_append, List.length_cons]
        omega
      rw [lines_line noFeed, List.flatten_cons, ih _ shorter rest rfl, List.append_assoc]
      rfl

/-! ## Returns before feeds -/

/-- Each carriage return stands before a line feed. -/
def Paired (t : Text) : Prop :=
  ∀ before after, t = before ++ .char '\r' :: after → after.head? = some (.char '\n')

theorem Paired.suffix {t u : Text} (paired : Paired (t ++ u)) : u.Paired := fun before after same =>
  paired (t ++ before) after (by rw [same, List.append_assoc])

private theorem chomp_feed {t : Text} (last : t.getLast? ≠ some (.char '\r')) :
    chomp (t ++ [.char '\n']) = t := by
  unfold chomp
  rw [List.reverse_append, List.reverse_singleton, List.singleton_append]
  rcases List.eq_nil_or_concat t with rfl | ⟨rest, r, rfl⟩
  · rfl
  · have isOther : r ≠ .char '\r' := fun same => last (by simp [same])
    simp [isOther]

private theorem chomp_return (t : Text) : chomp (t ++ [.char '\r', .char '\n']) = t := by
  simp [chomp]

/-- A line of such a text is without a return, but for one before its feed. -/
private theorem Paired.line {line rest : Text} (paired : Paired (line ++ .char '\n' :: rest))
    (noFeed : .char '\n' ∉ line) :
    .char '\r' ∉ line ∨ ∃ start, .char '\r' ∉ start ∧ line = start ++ [.char '\r'] := by
  by_cases isThere : .char '\r' ∈ line
  · obtain ⟨start, after, same, first⟩ := List.eq_append_cons_of_mem isThere
    refine .inr ⟨start, first, ?_⟩
    have next := paired start (after ++ .char '\n' :: rest) (by rw [same]; simp)
    cases after with
    | nil => exact same
    | cons r others =>
      rw [List.cons_append, List.head?_cons, Option.some.injEq] at next
      exact absurd (by simp [same, next]) noFeed
  · exact .inl isThere

/-- If each return stands before a feed, the lines without their ends are the same when the line ends are
folded. -/
theorem map_chomp_lines_foldLineEnds {t : Text} (paired : t.Paired) :
    t.foldLineEnds.lines.map chomp = t.lines.map chomp := by
  induction length : t.length using Nat.strongRecOn generalizing t with
  | _ n ih =>
    subst length
    rcases t.line_cases with noFeed | ⟨line, rest, noFeed, rfl⟩
    · rw [foldLineEnds_eq_self]
      intro isThere
      obtain ⟨before, after, rfl⟩ := List.append_of_mem isThere
      have next := paired before after rfl
      cases after with
      | nil => cases next
      | cons r others =>
        rw [List.head?_cons, Option.some.injEq] at next
        exact noFeed (by simp [next])
    · have shorter : rest.length < (line ++ .char '\n' :: rest).length := by
        simp only [List.length_append, List.length_cons]
        omega
      have split : line ++ .char '\n' :: rest = line ++ [.char '\n'] ++ rest := by simp
      have others := ih _ shorter (Paired.suffix (split ▸ paired)) rfl
      have apart : (line ++ [Rune.char '\n']).getLast? ≠ some (.char '\r') := by simp
      rw [lines_line noFeed, split, foldLineEnds_append (.inl apart)]
      rcases paired.line noFeed with noReturn | ⟨start, first, rfl⟩
      · have last : line.getLast? ≠ some (.char '\r') := fun same => noReturn (List.mem_of_getLast? same)
        rw [foldLineEnds_eq_self (by simpa using noReturn), List.append_assoc, List.singleton_append,
          lines_line noFeed, List.map_cons, List.map_cons, others]
      · have last : start.getLast? ≠ some (.char '\r') := fun same => first (List.mem_of_getLast? same)
        have noFeed' : .char '\n' ∉ start := fun isThere => noFeed (List.mem_append_left _ isThere)
        have folded : foldLineEnds (start ++ [.char '\r'] ++ [.char '\n']) = start ++ [.char '\n'] := by
          rw [List.append_assoc, foldLineEnds_append (.inl last), foldLineEnds_eq_self first]
          rfl
        rw [folded, List.append_assoc, List.singleton_append, lines_line noFeed', List.map_cons, List.map_cons,
          others, chomp_feed last, List.append_assoc]
        exact congrArg (· :: _) (chomp_return start).symm

private theorem chomp_subset (t : Text) : chomp t ⊆ t := by
  unfold chomp
  split
  · next rest same =>
    have whole := congrArg List.reverse same
    rw [List.reverse_reverse] at whole
    simp [whole]
  · next rest _ same =>
    have whole := congrArg List.reverse same
    rw [List.reverse_reverse] at whole
    simp [whole]
  · exact List.Subset.refl t

private theorem Paired.append {t u : Text} (first : t.Paired) (second : u.Paired) : Paired (t ++ u) := by
  intro before after same
  rcases List.append_eq_append_iff.mp same with ⟨more, rfl, isRest⟩ | ⟨more, split, isRest⟩
  · exact second more after isRest
  · cases more with
    | nil => exact second [] after isRest.symm
    | cons r others =>
      obtain ⟨rfl, rfl⟩ := List.cons.inj isRest
      have next := first before others split
      cases others with
      | nil => cases next
      | cons q others => exact next

private theorem paired_end : Paired [.char '\r', .char '\n'] := by
  intro before after same
  rcases before with _ | ⟨r, _ | ⟨q, before⟩⟩
  · cases same
    rfl
  · simp at same
  · simp at same

/-- Only then: a return that stands elsewhere stays in its line, unless it is folded. -/
theorem paired_of_map_chomp_lines {t : Text} (same : t.foldLineEnds.lines.map chomp = t.lines.map chomp) :
    t.Paired := by
  have none : ∀ line ∈ t.lines, .char '\r' ∉ chomp line := by
    intro line member isThere
    have there : chomp line ∈ t.foldLineEnds.lines.map chomp := same ▸ List.mem_map_of_mem member
    obtain ⟨folded, known, equal⟩ := List.mem_map.mp there
    refine return_notMem_foldLineEnds t ?_
    rw [← flatten_lines t.foldLineEnds]
    exact List.mem_flatten.mpr ⟨folded, known, chomp_subset folded (equal ▸ isThere)⟩
  clear same
  induction length : t.length using Nat.strongRecOn generalizing t with
  | _ n ih =>
    subst length
    have noReturn {u : Text} (none : .char '\r' ∉ u) : u.Paired := fun before after same =>
      absurd (by simp [same]) none
    rcases t.line_cases with noFeed | ⟨line, rest, noFeed, rfl⟩
    · by_cases empty : t = []
      · exact noReturn (by simp [empty])
      · have whole := none t (by simp [lines_last noFeed empty])
        have last : chomp t = t := by
          unfold chomp
          split
          · next rest same => exact absurd (List.mem_reverse.mp (by simp [same])) noFeed
          · next rest _ same => exact absurd (List.mem_reverse.mp (by simp [same])) noFeed
          · rfl
        exact noReturn (last ▸ whole)
    · rw [lines_line noFeed] at none
      have shorter : rest.length < (line ++ .char '\n' :: rest).length := by
        simp only [List.length_append, List.length_cons]
        omega
      have others := ih _ shorter (fun l member => none l (List.mem_cons_of_mem _ member)) rfl
      have split : line ++ .char '\n' :: rest = line ++ [.char '\n'] ++ rest := by simp
      rw [split]
      refine Paired.append ?_ others
      have first := none _ List.mem_cons_self
      by_cases last : line.getLast? = some (.char '\r')
      · obtain ⟨start, rfl⟩ := List.getLast?_eq_some_iff.mp last
        rw [List.append_assoc, List.singleton_append, chomp_return] at first
        rw [List.append_assoc]
        exact Paired.append (noReturn first) paired_end
      · rw [chomp_feed last] at first
        exact noReturn (by simpa using first)

/-- The lines without their ends are the same when the line ends are folded, just if each return stands before a
feed. -/
theorem map_chomp_lines_foldLineEnds_iff {t : Text} :
    t.foldLineEnds.lines.map chomp = t.lines.map chomp ↔ t.Paired :=
  ⟨paired_of_map_chomp_lines, map_chomp_lines_foldLineEnds⟩

end Text

end Pipework
