import Mathlib.Data.List.Perm.Basic
import Pipework.Proofs.Graph.Building

/-!
# Two ways to pipe three graphs

Whether the left two of three graphs are joined first or the right two, the same is asked: each is a graph or
a command, the ends that meet are free, and no node stands twice in all that was given (`Joinable`). The two
pipes then differ in nothing but their inner pipe node, and in the numbers of the leaves that were made for
commands (`joinings_match`).
-/

namespace Pipework

namespace Building

variable {α β : Type} {n n' : Nat} {a : α}

/-- After a step that has a result comes the next. -/
theorem run_bind {x : Building α} {f : α → Building β} (ran : x.run n = .ok (a, n')) :
    (x >>= f).run n = (f a).run n' := by
  rw [StateT.run_bind, ran]
  rfl

end Building

/-- The graph that an item is, if it is one already. -/
def Item.part? (i : Item) : Option Graph :=
  match i.it with
  | .graph g => some g
  | _ => none

/-- Whatever graph an item is, it is made of nodes only, and their numbers come before a number. -/
def Item.IsOlder (n : Nat) (i : Item) : Prop :=
  ∀ g, i.part? = some g → g.Whole ∧ ∀ a ∈ g.nodes, a.number < n

theorem Item.IsOlder.mono {n n' : Nat} {i : Item} (older : i.IsOlder n) (later : n ≤ n') : i.IsOlder n' :=
  fun g isPart => ⟨(older g isPart).1, fun a member => Nat.lt_of_lt_of_le ((older g isPart).2 a member) later⟩

namespace Graph

/-- The same graph, or two leaves that were made for the same command. -/
inductive Alike : Graph → Graph → Prop
  | refl (g : Graph) : Alike g g
  | leaf (n n' : Nat) (command : Item) : Alike (.leaf n command {}) (.leaf n' command {})

/-- Three graphs in one pipe, of which the left two or the right two were joined first. -/
inductive Regrouped : Graph → Graph → Prop
  | pipe {a a' b b' c c' : Graph} (first : Alike a a') (second : Alike b b') (third : Alike c c')
      (number k k' : Nat) (r : Redirects) :
    Regrouped (.pipe number (.pipe k a b {}) c r) (.pipe number a' (.pipe k' b' c' {}) r)

/-- Join the left two of three graphs first. -/
def joinLeft (a b c : Item) : Building Graph := do
  let joined ← pipeInto a b
  pipeInto joined.toItem c

/-- Join the right two of three graphs first. -/
def joinRight (a b c : Item) : Building Graph := do
  let joined ← pipeInto b c
  pipeInto a joined.toItem

/-! ## Nodes for items -/

/-- The node that an item becomes from a number on, and the next number after that. -/
inductive Becomes (i : Item) (n : Nat) : Graph → Nat → Prop
  | part {g : Graph} (isPart : i.part? = some g) : Becomes i n g n
  | leaf {c : Command} {words : List Label} (isCommand : i.it = .command c words) :
    Becomes i n (.leaf n i {}) (n + 1)

/-- An item becomes a node on which a stream is free. -/
def IsFree (i : Item) (s : Stream) : Prop := ∃ n g n', Becomes i n g n' ∧ g.boundary s = none

namespace Becomes

variable {i : Item} {n n' m m' : Nat} {g h : Graph}

theorem ran (becomes : Becomes i n g n') : (ofItem i).run n = .ok (g, n') := by
  obtain ⟨label, value⟩ := i
  cases becomes with
  | part isPart =>
    cases value <;> cases isPart
    rfl
  | leaf isCommand =>
    cases isCommand
    rfl

/-- What an item becomes hardly depends on the numbers. -/
theorem again (becomes : Becomes i n g n') (m : Nat) : ∃ h m', Becomes i m h m' := by
  cases becomes with
  | part isPart => exact ⟨g, m, .part isPart⟩
  | leaf isCommand => exact ⟨_, _, .leaf isCommand⟩

theorem alike (first : Becomes i n g n') (second : Becomes i m h m') : g.Alike h ∧ n' + m = m' + n := by
  cases first with
  | part isPart =>
    cases second with
    | part isPart' =>
      cases isPart.symm.trans isPart'
      exact ⟨.refl _, Nat.add_comm _ _⟩
    | leaf isCommand =>
      rw [Item.part?, isCommand] at isPart
      cases isPart
  | leaf isCommand =>
    cases second with
    | part isPart =>
      rw [Item.part?, isCommand] at isPart
      cases isPart
    | leaf isCommand' => exact ⟨.leaf _ _ _, by omega⟩

theorem whole (becomes : Becomes i n g n') (older : i.IsOlder n) : g.Whole := by
  cases becomes with
  | part isPart => exact (older g isPart).1
  | leaf isCommand =>
    intro a member
    cases List.mem_singleton.mp member
    rfl

theorem later (becomes : Becomes i n g n') : n ≤ n' := by
  cases becomes with
  | part => exact Nat.le_refl n
  | leaf => exact Nat.le_succ n

theorem older (becomes : Becomes i n g n') (older : i.IsOlder n) : ∀ a ∈ g.nodes, a.number < n' := by
  cases becomes with
  | part isPart => exact (older g isPart).2
  | leaf isCommand =>
    intro a member
    cases List.mem_singleton.mp member
    exact Nat.lt_succ_self n

end Becomes

theorem Alike.boundary {g h : Graph} (alike : g.Alike h) : g.boundary = h.boundary := by
  cases alike <;> rfl

theorem IsFree.becomes {i : Item} {s : Stream} (free : IsFree i s) (n : Nat) : ∃ g n', Becomes i n g n' := by
  obtain ⟨m, h, m', becomes, -⟩ := free
  exact becomes.again n

/-- Whether a stream is free does not depend on the numbers. -/
theorem IsFree.at {i : Item} {s : Stream} {n n' : Nat} {g : Graph} (free : IsFree i s)
    (becomes : Becomes i n g n') : g.boundary s = none := by
  obtain ⟨m, h, m', becomes', isFree⟩ := free
  rw [(becomes.alike becomes').1.boundary, isFree]

theorem yields_becomes (i : Item) (n : Nat) : (ofItem i).Yields n (Becomes i n) := by
  obtain ⟨label, value⟩ := i
  cases value with
  | graph g => exact .pure (.part rfl)
  | command c words => exact ⟨Nat.le_succ n, .leaf rfl⟩
  | _ => exact .throw fun m => ⟨_, rfl⟩

/-! ## One pipe -/

/-- A pipe that is made of two items from a number on. -/
structure Pipes (i j : Item) (n : Nat) (up down : Graph) (n' : Nat) : Prop where
  left : ∃ m, Becomes i n up m ∧ Becomes j m down n'
  output : up.boundary .stdout = none
  input : down.boundary .stdin = none
  distinct : Distinct [up, down]

section Pipe

variable {i j : Item} {n n' : Nat} {up down : Graph} (first : i.IsOlder n) (second : j.IsOlder n)
include first second

theorem Pipes.whole (pipes : Pipes i j n up down n') : up.Whole ∧ down.Whole := by
  obtain ⟨m, isUp, isDown⟩ := pipes.left
  exact ⟨isUp.whole first, isDown.whole (second.mono isUp.later)⟩

theorem Pipes.ran (pipes : Pipes i j n up down n') :
    (pipeInto i j).run n = .ok (.pipe n' up down {}, n' + 1) := by
  obtain ⟨wholeUp, wholeDown⟩ := pipes.whole first second
  obtain ⟨⟨m, isUp, isDown⟩, output, input, distinct⟩ := pipes
  have checked : checkDistinct [up, down] = .ok () :=
    (checkDistinct_iff (by simp [wholeUp, wholeDown])).mpr distinct
  have free : up.isTaken .stdout = .ok false := by rw [isTaken_of_whole wholeUp, output]; rfl
  have free' : down.isTaken .stdin = .ok false := by rw [isTaken_of_whole wholeDown, input]; rfl
  rw [pipeInto, Building.run_bind isUp.ran, Building.run_bind isDown.ran, free, free', checked]
  rfl

theorem yields_pipes : (pipeInto i j).Yields n fun g n' =>
    ∃ up down m, Pipes i j n up down m ∧ g = .pipe m up down {} ∧ n' = m + 1 := by
  refine .bind (yields_becomes i n) fun up m later isUp => .bind (yields_becomes j m) fun down m' later' isDown => ?_
  have wholeUp := isUp.whole first
  have wholeDown := isDown.whole (second.mono later)
  refine yields_free wholeUp fun output => yields_free wholeDown fun input => ?_
  refine .bind (yields_checkDistinct (by simp [wholeUp, wholeDown])) ?_
  rintro _ _ - ⟨rfl, distinct⟩
  refine .bind .freshNumber ?_
  rintro _ _ - ⟨rfl, rfl⟩
  exact .pure ⟨up, down, _, ⟨⟨m, isUp, isDown⟩, output, input, distinct⟩, rfl, rfl⟩

end Pipe

/-! ## Numbers -/

/-- The numbers of the nodes of some graphs. -/
def numbersOf (graphs : List Graph) : List Nat := (nodesOfAll graphs).map number

theorem numbersOf_append (a b : List Graph) : numbersOf (a ++ b) = numbersOf a ++ numbersOf b := by
  simp [numbersOf]

/-- Some graphs are made of parts and of new nodes, one for each number of a range. -/
structure Adds (n n' : Nat) (parts graphs : List Graph) : Prop where
  later : n ≤ n'
  numbers : (numbersOf graphs).Perm (List.range' n (n' - n) ++ numbersOf parts)

section Adds

variable {n m k : Nat} {parts parts' graphs graphs' : List Graph}

theorem Becomes.adds {i : Item} {g : Graph} (becomes : Becomes i n g m) : Adds n m i.part?.toList [g] := by
  refine ⟨becomes.later, ?_⟩
  cases becomes with
  | part isPart => simp [isPart]
  | leaf isCommand =>
    have noPart : i.part? = none := by rw [Item.part?, isCommand]
    rw [noPart, Nat.add_sub_cancel_left]
    exact .refl _

theorem Adds.append (first : Adds n m parts graphs) (second : Adds m k parts' graphs') :
    Adds n k (parts ++ parts') (graphs ++ graphs') := by
  obtain ⟨later, numbers⟩ := first
  obtain ⟨later', numbers'⟩ := second
  refine ⟨Nat.le_trans later later', ?_⟩
  have range : List.range' n (k - n) = List.range' n (m - n) ++ List.range' m (k - m) := by
    have split := List.range'_append_1 (s := n) (m := m - n) (n := k - m)
    rw [Nat.add_sub_cancel' later] at split
    rw [split]
    congr 1
    omega
  rw [numbersOf_append, numbersOf_append, range, List.append_assoc]
  refine (numbers.append numbers').trans ?_
  rw [List.append_assoc]
  refine .append_left _ ?_
  rw [← List.append_assoc, ← List.append_assoc]
  exact .append_right _ List.perm_append_comm

/-- A new pipe is a new node. -/
theorem Adds.pipe {up down : Graph} (adds : Adds n m parts [up, down]) :
    Adds n (m + 1) parts [.pipe m up down {}] := by
  obtain ⟨later, numbers⟩ := adds
  refine ⟨Nat.le_succ_of_le later, ?_⟩
  have nodes : numbersOf [.pipe m up down {}] = m :: numbersOf [up, down] := by
    simp [numbersOf, nodesOfAll, nodes, number, nodesOfRedirects, nodesOfTarget?]
  have range : List.range' n (m + 1 - n) = List.range' n (m - n) ++ [m] := by
    rw [Nat.succ_sub later, List.range'_concat]
    simp [Nat.add_sub_cancel' later]
  rw [nodes, range, List.append_assoc]
  exact (numbers.cons m).trans List.perm_middle.symm

theorem Adds.perm (adds : Adds n m parts graphs) (same : graphs.Perm graphs') (sameParts : parts.Perm parts') :
    Adds n m parts' graphs' := by
  have flat {a b : List Graph} (same : a.Perm b) : (numbersOf a).Perm (numbersOf b) := by
    rw [numbersOf, numbersOf, nodesOfAll_eq, nodesOfAll_eq]
    exact (same.flatMap_right _).map _
  exact ⟨adds.later, (flat same).symm.trans (adds.numbers.trans (.append_left _ (flat sameParts)))⟩

/-- New nodes do not stand twice. -/
theorem Adds.distinct (adds : Adds n m parts graphs) (older : ∀ a ∈ nodesOfAll parts, a.number < n) :
    Distinct graphs ↔ Distinct parts := by
  have apart : ∀ k ∈ List.range' n (m - n), ∀ k' ∈ numbersOf parts, k ≠ k' := by
    intro k isNew k' isOld
    obtain ⟨a, member, rfl⟩ := List.mem_map.mp isOld
    have := older a member
    have := (List.mem_range'_1.mp isNew).1
    omega
  change (numbersOf graphs).Nodup ↔ (numbersOf parts).Nodup
  rw [adds.numbers.nodup_iff, List.nodup_append]
  exact ⟨fun both => both.2.1, fun distinct => ⟨List.nodup_range', distinct, apart⟩⟩

end Adds

/-! ## Three graphs -/

/-- What the left two graphs joined first come to, from a number on. -/
inductive JoinedLeft (a b c : Item) (n : Nat) : Graph → Nat → Prop
  | pipe {a' b' c' : Graph} {m₁ k m : Nat} (first : Becomes a n a' m₁) (second : Becomes b m₁ b' k)
    (third : Becomes c (k + 1) c' m) :
    JoinedLeft a b c n (.pipe m (.pipe k a' b' {}) c' {}) (m + 1)

/-- What the right two graphs joined first come to, from a number on. -/
inductive JoinedRight (a b c : Item) (n : Nat) : Graph → Nat → Prop
  | pipe {a' b' c' : Graph} {m₁ k m : Nat} (second : Becomes b n b' m₁) (third : Becomes c m₁ c' k)
    (first : Becomes a (k + 1) a' m) :
    JoinedRight a b c n (.pipe m a' (.pipe k b' c' {}) {}) (m + 1)

/-- What is asked of three items to be joined by pipes, in whatever order. -/
structure Joinable (a b c : Item) : Prop where
  output : IsFree a .stdout
  middle : IsFree b .stdin ∧ IsFree b .stdout
  input : IsFree c .stdin
  distinct : Distinct (a.part?.toList ++ b.part?.toList ++ c.part?.toList)

section Join

variable {a b c : Item} {n n' : Nat} {g : Graph}

theorem JoinedLeft.adds (joined : JoinedLeft a b c n g n') :
    Adds n n' (a.part?.toList ++ b.part?.toList ++ c.part?.toList) [g] := by
  cases joined with
  | pipe first second third => exact ((first.adds.append second.adds).pipe.append third.adds).pipe

/-- Before the last pipe is made, the right two graphs have been joined, and then the left one was added. -/
private theorem adds_right {a' b' c' : Graph} {m₁ k m : Nat} (second : Becomes b n b' m₁) (third : Becomes c m₁ c' k)
    (first : Becomes a (k + 1) a' m) :
    Adds n m (a.part?.toList ++ b.part?.toList ++ c.part?.toList) [a', .pipe k b' c' {}] := by
  refine ((second.adds.append third.adds).pipe.append first.adds).perm (List.Perm.swap _ _ _) ?_
  rw [List.append_assoc a.part?.toList]
  exact List.perm_append_comm

theorem JoinedRight.adds (joined : JoinedRight a b c n g n') :
    Adds n n' (a.part?.toList ++ b.part?.toList ++ c.part?.toList) [g] := by
  cases joined with
  | pipe second third first => exact (adds_right second third first).pipe

/-- Both ways draw as many numbers. -/
theorem JoinedLeft.next_eq {h : Graph} {m : Nat} (joined : JoinedLeft a b c n g n') (joined' : JoinedRight a b c n h m) :
    n' = m := by
  cases joined with
  | pipe first second third =>
    cases joined' with
    | pipe second' third' first' =>
      have := (first.alike first').2
      have := (second.alike second').2
      have := (third.alike third').2
      omega

theorem JoinedLeft.regrouped {h : Graph} (joined : JoinedLeft a b c n g n') (joined' : JoinedRight a b c n h n') :
    g.Regrouped h := by
  cases joined with
  | pipe first second third =>
    cases joined' with
    | pipe second' third' first' =>
      exact .pipe (first.alike first').1 (second.alike second').1 (third.alike third').1 _ _ _ {}

/-- What is made of older parts is older than what is made next. -/
theorem isOlder_joined {i j : Item} {up down : Graph} (older : i.IsOlder n) (older' : j.IsOlder n)
    (pipes : Pipes i j n up down n') : (Graph.pipe n' up down {}).toItem.IsOlder (n' + 1) := by
  rintro g ⟨⟩
  obtain ⟨wholeUp, wholeDown⟩ := pipes.whole older older'
  obtain ⟨⟨m, isUp, isDown⟩, -, -, -⟩ := pipes
  have below (a : Graph) (member : a ∈ (Graph.pipe n' up down {}).nodes) :
      a = .pipe n' up down {} ∨ a ∈ up.nodes ∨ a ∈ down.nodes := by
    simpa [nodes, nodesOfRedirects, nodesOfTarget?] using member
  constructor
  · intro a member
    rcases below a member with rfl | inUp | inDown
    · rfl
    · exact wholeUp a inUp
    · exact wholeDown a inDown
  · intro a member
    rcases below a member with rfl | inUp | inDown
    · exact Nat.lt_succ_self n'
    · exact Nat.lt_succ_of_lt (Nat.lt_of_lt_of_le (isUp.older older a inUp) isDown.later)
    · exact Nat.lt_succ_of_lt (isDown.older (older'.mono isUp.later) a inDown)

/-- The parts of items are as old as the items. -/
private theorem older_parts (first : a.IsOlder n) (second : b.IsOlder n) (third : c.IsOlder n) :
    ∀ x ∈ nodesOfAll (a.part?.toList ++ b.part?.toList ++ c.part?.toList), x.number < n := by
  intro x member
  obtain ⟨g, isPart, inPart⟩ := mem_nodesOfAll.mp member
  simp only [List.mem_append, Option.mem_toList] at isPart
  rcases isPart with (isPart | isPart) | isPart
  · exact (first g isPart).2 x inPart
  · exact (second g isPart).2 x inPart
  · exact (third g isPart).2 x inPart

variable (first : a.IsOlder n) (second : b.IsOlder n) (third : c.IsOlder n)
include first second third

theorem yields_joinLeft : (joinLeft a b c).Yields n fun g n' =>
    JoinedLeft a b c n g n' ∧ g.Whole ∧ Joinable a b c := by
  refine .bind (yields_pipes first second) ?_
  rintro _ _ later ⟨up, down, k, pipes, rfl, rfl⟩
  have pair := isOlder_joined first second pipes
  refine (yields_pipes pair (third.mono later)).mono ?_
  rintro _ _ - ⟨pair', down', m, pipes', rfl, rfl⟩
  have whole := (isOlder_joined pair (third.mono later) pipes' _ rfl).1
  obtain ⟨⟨m₁, isFirst, isSecond⟩, output, input, -⟩ := pipes
  obtain ⟨⟨m₂, isPair, isThird⟩, output', input', distinct⟩ := pipes'
  obtain ⟨⟨⟩⟩ | ⟨⟨⟩⟩ := isPair
  have adds := (isFirst.adds.append isSecond.adds).pipe.append isThird.adds
  exact ⟨.pipe isFirst isSecond isThird, whole, ⟨_, _, _, isFirst, output⟩,
    ⟨⟨_, _, _, isSecond, input⟩, _, _, _, isSecond, output'⟩, ⟨_, _, _, isThird, input'⟩,
    (adds.distinct (older_parts first second third)).mp distinct⟩

theorem yields_joinRight : (joinRight a b c).Yields n fun g n' =>
    JoinedRight a b c n g n' ∧ g.Whole ∧ Joinable a b c := by
  refine .bind (yields_pipes second third) ?_
  rintro _ _ later ⟨up, down, k, pipes, rfl, rfl⟩
  have pair := isOlder_joined second third pipes
  refine (yields_pipes (first.mono later) pair).mono ?_
  rintro _ _ - ⟨up', pair', m, pipes', rfl, rfl⟩
  have whole := (isOlder_joined (first.mono later) pair pipes' _ rfl).1
  obtain ⟨⟨m₁, isSecond, isThird⟩, output, input, -⟩ := pipes
  obtain ⟨⟨m₂, isFirst, isPair⟩, output', input', distinct⟩ := pipes'
  obtain ⟨⟨⟩⟩ | ⟨⟨⟩⟩ := isPair
  exact ⟨.pipe isSecond isThird isFirst, whole, ⟨_, _, _, isFirst, output'⟩,
    ⟨⟨_, _, _, isSecond, input'⟩, _, _, _, isSecond, output⟩, ⟨_, _, _, isThird, input⟩,
    ((adds_right isSecond isThird isFirst).distinct (older_parts first second third)).mp distinct⟩

end Join

section Joinable

variable {a b c : Item} {n : Nat} (joinable : Joinable a b c) (first : a.IsOlder n) (second : b.IsOlder n)
    (third : c.IsOlder n)
include joinable first second third

/-- What may be joined is joined when the left two graphs come first. -/
theorem Joinable.runs_left : ∃ g n', (joinLeft a b c).run n = .ok (g, n') := by
  obtain ⟨output, ⟨input, output'⟩, input', distinct⟩ := joinable
  obtain ⟨a', m₁, isFirst⟩ := output.becomes n
  obtain ⟨b', k, isSecond⟩ := input.becomes m₁
  obtain ⟨c', m, isThird⟩ := input'.becomes (k + 1)
  have older := older_parts first second third
  have pair := isFirst.adds.append isSecond.adds
  have pipes : Pipes a b n a' b' k := by
    refine ⟨⟨m₁, isFirst, isSecond⟩, output.at isFirst, input.at isSecond, (pair.distinct ?_).mpr ?_⟩
    · exact fun x member => older x (by rw [nodesOfAll_append]; exact List.mem_append_left _ member)
    · exact distinct.of_sublist (by rw [nodesOfAll_append _ c.part?.toList]; exact List.sublist_append_left _ _)
  have free : b'.boundary .stdout = none := output'.at isSecond
  have pipes' : Pipes (Graph.pipe k a' b' {}).toItem c (k + 1) (.pipe k a' b' {}) c' m :=
    ⟨⟨k + 1, .part rfl, isThird⟩, free, input'.at isThird,
      ((pair.pipe.append isThird.adds).distinct older).mpr distinct⟩
  have later := Nat.le_trans (Nat.le_trans isFirst.later isSecond.later) (Nat.le_succ k)
  rw [joinLeft, Building.run_bind (pipes.ran first second)]
  exact ⟨_, _, pipes'.ran (isOlder_joined first second pipes) (third.mono later)⟩

/-- What may be joined is joined when the right two graphs come first. -/
theorem Joinable.runs_right : ∃ g n', (joinRight a b c).run n = .ok (g, n') := by
  obtain ⟨output, ⟨input, output'⟩, input', distinct⟩ := joinable
  obtain ⟨b', m₁, isSecond⟩ := input.becomes n
  obtain ⟨c', k, isThird⟩ := input'.becomes m₁
  obtain ⟨a', m, isFirst⟩ := output.becomes (k + 1)
  have older := older_parts first second third
  have pipes : Pipes b c n b' c' k := by
    refine ⟨⟨m₁, isSecond, isThird⟩, output'.at isSecond, input'.at isThird,
      ((isSecond.adds.append isThird.adds).distinct ?_).mpr ?_⟩
    · refine fun x member => older x ?_
      rw [List.append_assoc, nodesOfAll_append]
      exact List.mem_append_right _ member
    · refine distinct.of_sublist ?_
      rw [List.append_assoc a.part?.toList, nodesOfAll_append a.part?.toList]
      exact List.sublist_append_right _ _
  have free : b'.boundary .stdin = none := input.at isSecond
  have pipes' : Pipes a (Graph.pipe k b' c' {}).toItem (k + 1) a' (.pipe k b' c' {}) m :=
    ⟨⟨m, isFirst, .part rfl⟩, output.at isFirst, free,
      ((adds_right isSecond isThird isFirst).distinct older).mpr distinct⟩
  have later := Nat.le_trans (Nat.le_trans isSecond.later isThird.later) (Nat.le_succ k)
  rw [joinRight, Building.run_bind (pipes.ran second third)]
  exact ⟨_, _, pipes'.ran (first.mono later) (isOlder_joined second third pipes)⟩

end Joinable

/-- Three graphs joined in two ways: both are made of nodes only, and of nodes of the same numbers, none of them
twice. -/
structure Matched (l r : Graph) : Prop where
  regrouped : l.Regrouped r
  whole : l.Whole ∧ r.Whole
  distinct : Distinct [l]
  numbers : (numbersOf [l]).Perm (numbersOf [r])

/-- **Joining is refused in both orders or in none**, and then the two pipes differ only in their grouping. -/
theorem joinings_match {a b c : Item} {n : Nat} (first : a.IsOlder n) (second : b.IsOlder n) (third : c.IsOlder n) :
    (∃ e e', (joinLeft a b c).run n = .error e ∧ e.IsRefusal ∧
      (joinRight a b c).run n = .error e' ∧ e'.IsRefusal) ∨
    ∃ l r n', (joinLeft a b c).run n = .ok (l, n') ∧ (joinRight a b c).run n = .ok (r, n') ∧ l.Matched r := by
  have left := yields_joinLeft first second third
  have right := yields_joinRight first second third
  cases ranLeft : (joinLeft a b c).run n with
  | error e =>
    cases ranRight : (joinRight a b c).run n with
    | error e' => exact .inl ⟨e, e', rfl, left.error ranLeft, rfl, right.error ranRight⟩
    | ok done =>
      obtain ⟨g, n', ran⟩ := (right.ok ranRight).2.2.2.runs_left first second third
      rw [ran] at ranLeft
      cases ranLeft
  | ok done =>
    obtain ⟨l, n'⟩ := done
    obtain ⟨-, joined, wholeLeft, joinable⟩ := left.ok ranLeft
    obtain ⟨r, n'', ranRight⟩ := joinable.runs_right first second third
    obtain ⟨-, joined', wholeRight, -⟩ := right.ok ranRight
    have same := joined.next_eq joined'
    subst same
    exact .inr ⟨l, r, n', rfl, ranRight, joined.regrouped joined', ⟨wholeLeft, wholeRight⟩,
      (joined.adds.distinct (older_parts first second third)).mpr joinable.distinct,
      joined.adds.numbers.trans joined'.adds.numbers.symm⟩

end Graph

end Pipework
