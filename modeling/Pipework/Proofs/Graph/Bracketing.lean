import Pipework.Proofs.Graph.Builders
import Pipework.Proofs.Graph.Regrouping
import Pipework.Value.Equality

/-!
# Nested groups

Items that are put side by side may be put into brackets first, each of which is a call of its own
(`Bracketing`). A call takes groups without redirects apart one level deep. What comes of a bracket is such a
group, and its members are flat already: they are what the items of the bracket contribute
(`Graph.Contributes`). So it is asked of the items, and not of the brackets, whether they can be put together
(`Fits`), and the members of the outermost group are what all the items contribute, but for the numbers of the
leaves that were made for commands (`bracketings_match`).
-/

namespace Pipework

/-- An item with brackets around it: the item itself, or a bracket around at least one part. -/
inductive Bracketing where
  | item (i : Item)
  | bracket (first : Bracketing) (rest : List Bracketing)

namespace Bracketing

mutual

/-- The items within the brackets, in their order. -/
def items : Bracketing → List Item
  | .item i => [i]
  | .bracket first rest => items first ++ itemsOfAll rest

/-- The items within some brackets, in their order. -/
def itemsOfAll : List Bracketing → List Item
  | [] => []
  | b :: rest => items b ++ itemsOfAll rest

end

mutual

/-- What an argument of a call is made of: every bracket is a call that comes before. -/
def build : Bracketing → Building Item
  | .item i => return i
  | .bracket first rest => do
    let first ← build first
    let rest ← buildAll rest
    return (← Graph.parallel (first :: rest)).toItem

/-- What the arguments of a call are made of, from left to right. -/
def buildAll : List Bracketing → Building (List Item)
  | [] => return []
  | b :: rest => do
    let i ← build b
    let items ← buildAll rest
    return i :: items

end

/-- Put items side by side, in calls that are nested like their brackets. -/
def parallel (parts : List Bracketing) : Building Graph := do Graph.parallel (← buildAll parts)

end Bracketing

/-! ## Items -/

/-- An item that can stand for a graph. -/
def Item.IsGraphLike (i : Item) : Prop := ∃ n g n', Graph.Becomes i n g n'

/-- The graphs that an item brings into a group. -/
def Item.pieces (i : Item) : List Graph := i.part?.toList.flatMap Graph.flatten

namespace Graph

/-- The graphs that some items bring into a group. -/
def piecesOf (items : List Item) : List Graph := items.flatMap Item.pieces

theorem piecesOf_append (a b : List Item) : piecesOf (a ++ b) = piecesOf a ++ piecesOf b := List.flatMap_append

/-- Items that can be put together: each can stand for a graph, and no node stands twice in what they bring. -/
structure Fits (items : List Item) : Prop where
  graphLike : ∀ i ∈ items, i.IsGraphLike
  distinct : Distinct (piecesOf items)

theorem Fits.of_append {a b : List Item} (fits : Fits (a ++ b)) : Fits a ∧ Fits b := by
  obtain ⟨graphLike, distinct⟩ := fits
  rw [piecesOf_append] at distinct
  refine ⟨⟨fun i member => graphLike i (List.mem_append_left _ member), distinct.of_sublist ?_⟩,
    ⟨fun i member => graphLike i (List.mem_append_right _ member), distinct.of_sublist ?_⟩⟩ <;>
  rw [nodesOfAll_append]
  · exact List.sublist_append_left _ _
  · exact List.sublist_append_right _ _

/-! ## Members -/

/-- What an item contributes to the members of a group: a group without redirects its members, any other graph
itself, and a command a new leaf. -/
inductive Contributes (i : Item) : List Graph → Prop
  | part {g : Graph} (isPart : i.part? = some g) : Contributes i g.flatten
  | leaf (number : Nat) {c : Command} {words : List Label} (isCommand : i.it = .command c words) :
    Contributes i [.leaf number i {}]

/-- What some items contribute, one after the other. -/
inductive ContributeAll : List Item → List Graph → Prop
  | nil : ContributeAll [] []
  | cons {i : Item} {items : List Item} {members later : List Graph} (first : Contributes i members)
    (rest : ContributeAll items later) : ContributeAll (i :: items) (members ++ later)

section Members

variable {i : Item} {items more : List Item} {members members' : List Graph} {n : Nat}

theorem Contributes.alike (first : Contributes i members) (second : Contributes i members') :
    List.Forall₂ Alike members members' := by
  cases first with
  | part isPart =>
    cases second with
    | part isPart' =>
      cases isPart.symm.trans isPart'
      exact List.forall₂_same.mpr fun g _ => .refl g
    | leaf number isCommand =>
      rw [Item.part?, isCommand] at isPart
      cases isPart
  | leaf number isCommand =>
    cases second with
    | part isPart =>
      rw [Item.part?, isCommand] at isPart
      cases isPart
    | leaf number' => exact .cons (.leaf _ _ _) .nil

/-- What items contribute hardly depends on the numbers. -/
theorem ContributeAll.alike (first : ContributeAll items members) (second : ContributeAll items members') :
    List.Forall₂ Alike members members' := by
  induction first generalizing members' with
  | nil =>
    cases second
    exact .nil
  | cons first rest ih =>
    cases second with
    | cons first' rest' => exact List.rel_append (first.alike first') (ih rest')

theorem ContributeAll.append (first : ContributeAll items members) (second : ContributeAll more members') :
    ContributeAll (items ++ more) (members ++ members') := by
  induction first with
  | nil => exact second
  | cons first rest ih =>
    rw [List.append_assoc]
    exact .cons first ih

theorem ContributeAll.of_append (contribute : ContributeAll (items ++ more) members) :
    ∃ a b, members = a ++ b ∧ ContributeAll items a ∧ ContributeAll more b := by
  induction items generalizing members with
  | nil => exact ⟨[], members, rfl, .nil, contribute⟩
  | cons i rest ih =>
    cases contribute with
    | @cons _ _ first _ here later =>
      obtain ⟨a, b, rfl, inRest, inMore⟩ := ih later
      exact ⟨first ++ a, b, (List.append_assoc _ _ _).symm, .cons here inRest, inMore⟩

/-- What older items contribute is made of nodes only. -/
theorem ContributeAll.whole (contribute : ContributeAll items members) (older : ∀ i ∈ items, i.IsOlder n) :
    ∀ g ∈ members, g.Whole := by
  induction contribute with
  | nil => exact fun g member => absurd member List.not_mem_nil
  | @cons i items here later first rest ih =>
    intro g member
    rcases List.mem_append.mp member with inFirst | inRest
    · cases first with
      | part isPart =>
        exact fun a below => (older i List.mem_cons_self _ isPart).1 a
          ((nodes_sublist (mem_nodes_of_flatten inFirst)).subset below)
      | leaf number isCommand =>
        cases List.mem_singleton.mp inFirst
        intro a below
        cases List.mem_singleton.mp below
        rfl
    · exact ih (fun i member => older i (List.mem_cons_of_mem _ member)) g inRest

/-- What some items bring, the items contribute. -/
theorem ContributeAll.mem_of_piece (contribute : ContributeAll items members) {g : Graph}
    (isPiece : g ∈ piecesOf items) : g ∈ members := by
  induction contribute with
  | nil => cases isPiece
  | @cons i items here later first rest ih =>
    rcases List.mem_append.mp isPiece with inFirst | inRest
    · refine List.mem_append_left _ ?_
      obtain ⟨h, isPart, inFlat⟩ := List.mem_flatMap.mp inFirst
      have isPart := Option.mem_toList.mp isPart
      cases first with
      | part isPart' =>
        cases isPart.symm.trans isPart'
        exact inFlat
      | leaf number isCommand =>
        rw [Item.part?, isCommand] at isPart
        cases isPart
    · exact List.mem_append_right _ (ih inRest)

end Members

/-! ## Numbers of new leaves -/

/-- Some graphs are made of parts and of new nodes with numbers from a range, no two of them with one number. -/
structure Draws (n n' : Nat) (parts graphs : List Graph) : Prop where
  later : n ≤ n'
  numbers : ∃ drawn : List Nat, drawn.Nodup ∧ (∀ k ∈ drawn, n ≤ k ∧ k < n') ∧
    (numbersOf graphs).Perm (drawn ++ numbersOf parts)

namespace Draws

variable {n m k : Nat} {parts parts' graphs graphs' : List Graph}

theorem refl (n : Nat) (graphs : List Graph) : Draws n n graphs graphs := ⟨Nat.le_refl n, [], .nil, nofun, .refl _⟩

/-- Numbers from ranges one behind the other are apart. -/
private theorem nodup_drawn {drawn drawn' : List Nat} (first : drawn.Nodup) (second : drawn'.Nodup)
    (before : ∀ a ∈ drawn, n ≤ a ∧ a < m) (behind : ∀ a ∈ drawn', m ≤ a ∧ a < k) : (drawn ++ drawn').Nodup :=
  List.nodup_append.mpr ⟨first, second, fun a inFirst b inSecond =>
    Nat.ne_of_lt (Nat.lt_of_lt_of_le (before a inFirst).2 (behind b inSecond).1)⟩

private theorem mem_drawn {drawn drawn' : List Nat} (later : n ≤ m) (later' : m ≤ k)
    (before : ∀ a ∈ drawn, n ≤ a ∧ a < m) (behind : ∀ a ∈ drawn', m ≤ a ∧ a < k) :
    ∀ a ∈ drawn ++ drawn', n ≤ a ∧ a < k := by
  intro a member
  rcases List.mem_append.mp member with inFirst | inSecond
  · exact ⟨(before a inFirst).1, Nat.lt_of_lt_of_le (before a inFirst).2 later'⟩
  · exact ⟨Nat.le_trans later (behind a inSecond).1, (behind a inSecond).2⟩

theorem append (first : Draws n m parts graphs) (second : Draws m k parts' graphs') :
    Draws n k (parts ++ parts') (graphs ++ graphs') := by
  obtain ⟨later, drawn, nodup, before, numbers⟩ := first
  obtain ⟨later', drawn', nodup', behind, numbers'⟩ := second
  refine ⟨Nat.le_trans later later', drawn ++ drawn', nodup_drawn nodup nodup' before behind,
    mem_drawn later later' before behind, List.perm_iff_count.mpr fun a => ?_⟩
  have here := numbers.count_eq a
  have there := numbers'.count_eq a
  simp only [numbersOf_append, List.count_append] at here there ⊢
  omega

/-- Parts that have new nodes themselves. -/
theorem trans {made : List Graph} (first : Draws n m parts made) (second : Draws m k made graphs) :
    Draws n k parts graphs := by
  obtain ⟨later, drawn, nodup, before, numbers⟩ := first
  obtain ⟨later', drawn', nodup', behind, numbers'⟩ := second
  refine ⟨Nat.le_trans later later', drawn ++ drawn', nodup_drawn nodup nodup' before behind,
    mem_drawn later later' before behind, List.perm_iff_count.mpr fun a => ?_⟩
  have here := numbers.count_eq a
  have there := numbers'.count_eq a
  simp only [List.count_append] at here there ⊢
  omega

/-- A range can be longer at its end. -/
theorem mono (draws : Draws n m parts graphs) (later : m ≤ k) : Draws n k parts graphs := by
  obtain ⟨before, drawn, nodup, range, numbers⟩ := draws
  exact ⟨Nat.le_trans before later, drawn, nodup,
    fun a isNew => ⟨(range a isNew).1, Nat.lt_of_lt_of_le (range a isNew).2 later⟩, numbers⟩

section Older

variable (draws : Draws n m parts graphs) (older : ∀ a ∈ nodesOfAll parts, a.number < n)
include draws older

/-- New nodes do not stand twice. -/
theorem distinct : Distinct graphs ↔ Distinct parts := by
  obtain ⟨-, drawn, nodup, range, numbers⟩ := draws
  have apart : ∀ k ∈ drawn, ∀ k' ∈ numbersOf parts, k ≠ k' := by
    intro k isNew k' isOld
    obtain ⟨a, member, rfl⟩ := List.mem_map.mp isOld
    exact Nat.ne_of_gt (Nat.lt_of_lt_of_le (older a member) (range k isNew).1)
  change (numbersOf graphs).Nodup ↔ (numbersOf parts).Nodup
  rw [numbers.nodup_iff, List.nodup_append]
  exact ⟨fun both => both.2.1, fun distinct => ⟨nodup, distinct, apart⟩⟩

theorem number_lt : ∀ a ∈ nodesOfAll graphs, a.number < m := by
  obtain ⟨later, drawn, -, range, numbers⟩ := draws
  intro a member
  rcases List.mem_append.mp (numbers.subset (List.mem_map_of_mem member)) with isNew | isOld
  · exact (range _ isNew).2
  · obtain ⟨b, isPart, same⟩ := List.mem_map.mp isOld
    rw [← same]
    exact Nat.lt_of_lt_of_le (older b isPart) later

end Older

end Draws

/-- Older items bring older nodes. -/
theorem older_pieces {items : List Item} {n : Nat} (older : ∀ i ∈ items, i.IsOlder n) :
    ∀ a ∈ nodesOfAll (piecesOf items), a.number < n := by
  intro a member
  obtain ⟨g, isPiece, inPiece⟩ := mem_nodesOfAll.mp member
  obtain ⟨i, isItem, ofItem⟩ := List.mem_flatMap.mp isPiece
  obtain ⟨h, isPart, inFlat⟩ := List.mem_flatMap.mp ofItem
  exact (older i isItem h (Option.mem_toList.mp isPart)).2 a
    ((nodes_sublist (mem_nodes_of_flatten inFlat)).subset inPiece)

/-! ## One call -/

theorem Becomes.contributes {i : Item} {n n' : Nat} {g : Graph} (becomes : Becomes i n g n') :
    Contributes i g.flatten := by
  cases becomes with
  | part isPart => exact .part isPart
  | leaf isCommand => exact .leaf n isCommand

theorem Becomes.draws {i : Item} {n n' : Nat} {g : Graph} (becomes : Becomes i n g n') :
    Draws n n' i.pieces g.flatten := by
  cases becomes with
  | part isPart =>
    rw [Item.pieces, isPart, Option.toList_some, List.flatMap_singleton]
    exact .refl n _
  | leaf isCommand =>
    have noPart : i.part? = none := by rw [Item.part?, isCommand]
    rw [Item.pieces, noPart]
    exact ⟨Nat.le_succ n, [n], List.nodup_cons.mpr ⟨List.not_mem_nil, .nil⟩, fun k member => by
      cases List.mem_singleton.mp member
      exact ⟨Nat.le_refl n, Nat.lt_succ_self n⟩, .refl _⟩

theorem settles_ofItem (i : Item) (n : Nat) : (ofItem i).Settles n i.IsGraphLike (Becomes i n) := by
  obtain ⟨label, value⟩ := i
  cases value with
  | graph g => exact ⟨Nat.le_refl n, ⟨n, g, n, .part rfl⟩, .part rfl⟩
  | command c words => exact ⟨Nat.le_succ n, ⟨n, _, n + 1, .leaf rfl⟩, .leaf rfl⟩
  | _ =>
    refine ⟨fun ⟨m, g, m', becomes⟩ => ?_, fun m => ⟨_, rfl⟩⟩
    cases becomes with
    | part isPart => cases isPart
    | leaf isCommand => cases isCommand

theorem settles_ofItems (items : List Item) (n : Nat) :
    (items.mapM ofItem).Settles n (∀ i ∈ items, i.IsGraphLike) fun graphs n' =>
      ContributeAll items (graphs.flatMap flatten) ∧ Draws n n' (piecesOf items) (graphs.flatMap flatten) := by
  induction items generalizing n with
  | nil => exact ⟨Nat.le_refl n, nofun, .nil, .refl n []⟩
  | cons i rest ih =>
    rw [List.mapM_cons]
    refine Building.Settles.mono ((settles_ofItem i n).bind fun g m _ _ becomes => (ih m).map ?_)
      List.forall_mem_cons.symm fun _ _ _ _ made => made
    rintro graphs m' - - ⟨contribute, draws⟩
    exact ⟨.cons becomes.contributes contribute, becomes.draws.append draws⟩

theorem settles_checkDistinct {graphs : List Graph} (whole : ∀ g ∈ graphs, g.Whole) (n : Nat) :
    (liftM (checkDistinct graphs) : Building Unit).Settles n (Distinct graphs) fun _ n' => n' = n := by
  have yields := yields_checkDistinct (n := n) whole
  cases checked : checkDistinct graphs with
  | ok _ => exact ⟨Nat.le_refl n, (checkDistinct_iff whole).mp checked, rfl⟩
  | error e =>
    rw [checked] at yields
    refine ⟨fun distinct => ?_, yields⟩
    rw [(checkDistinct_iff whole).mpr distinct] at checked
    cases checked

/-- What a call makes of some items. -/
inductive Grouped (items : List Item) (n : Nat) : Graph → Nat → Prop
  | group {number : Nat} {members : List Graph} (contribute : ContributeAll items members)
    (draws : Draws n number (piecesOf items) members) :
    Grouped items n (.group number (.part (.own number) "members") members {}) (number + 1)

/-- A call is accepted exactly if there are items and they can be put together. -/
theorem settles_parallel {items : List Item} {n : Nat} (older : ∀ i ∈ items, i.IsOlder n) :
    (parallel items).Settles n (items ≠ [] ∧ Fits items) (Grouped items n) := by
  cases items with
  | nil => exact ⟨fun both => both.1 rfl, fun m => ⟨_, rfl⟩⟩
  | cons i rest =>
    have made : parallel (i :: rest) = (do
        let graphs ← (i :: rest).mapM ofItem
        liftM (checkDistinct (graphs.flatMap flatten))
        ofMembers (graphs.flatMap flatten) {}) := rfl
    have checked {graphs : List Graph} {m : Nat} (contribute : ContributeAll (i :: rest) (graphs.flatMap flatten))
        (draws : Draws n m (piecesOf (i :: rest)) (graphs.flatMap flatten)) :
        (do
          liftM (checkDistinct (graphs.flatMap flatten))
          ofMembers (graphs.flatMap flatten) {} : Building Graph).Settles m
          (Distinct (piecesOf (i :: rest)) ∧ True) (Grouped (i :: rest) n) := by
      have sameNodes := draws.distinct (older_pieces older)
      refine ((settles_checkDistinct (contribute.whole older) m).mono sameNodes fun _ _ _ _ same => same).bind ?_
      rintro _ _ - - rfl
      exact ⟨Nat.le_succ _, trivial, .group contribute draws⟩
    rw [made]
    refine Building.Settles.mono ((settles_ofItems (i :: rest) n).bind fun graphs m _ _ ⟨contribute, draws⟩ =>
      checked contribute draws) ⟨fun both => ⟨List.cons_ne_nil _ _, both.1, both.2.1⟩, fun both =>
        ⟨both.2.graphLike, both.2.distinct, trivial⟩⟩ fun _ _ _ _ made => made

/-! ## Calls within calls -/

/-- Items that were built in the place of others: they bring what those bring, but for new leaves. -/
structure StandsFor (items : List Item) (n : Nat) (built : List Item) (n' : Nat) : Prop where
  contribute : ∀ {members}, ContributeAll built members → ContributeAll items members
  draws : Draws n n' (piecesOf items) (piecesOf built)
  older : ∀ i ∈ built, i.IsOlder n'
  graphLike : (∀ i ∈ built, i.IsGraphLike) ↔ ∀ i ∈ items, i.IsGraphLike

namespace StandsFor

variable {n m k : Nat} {items more built later : List Item}

theorem self (older : ∀ i ∈ items, i.IsOlder n) : StandsFor items n items n := ⟨id, .refl n _, older, .rfl⟩

theorem append (first : StandsFor items n built m) (second : StandsFor more m later k) :
    StandsFor (items ++ more) n (built ++ later) k where
  contribute contribute := by
    obtain ⟨a, b, rfl, inFirst, inSecond⟩ := contribute.of_append
    exact (first.contribute inFirst).append (second.contribute inSecond)
  draws := by
    rw [piecesOf_append, piecesOf_append]
    exact first.draws.append second.draws
  older i member := by
    rcases List.mem_append.mp member with inFirst | inSecond
    · exact (first.older i inFirst).mono second.draws.later
    · exact second.older i inSecond
  graphLike := by rw [List.forall_mem_append, List.forall_mem_append, first.graphLike, second.graphLike]

/-- What was built can be put together exactly if the items can. -/
theorem fits (stands : StandsFor items n built m) (older : ∀ i ∈ items, i.IsOlder n) : Fits built ↔ Fits items := by
  have distinct := stands.draws.distinct (older_pieces older)
  exact ⟨fun fits => ⟨stands.graphLike.mp fits.graphLike, distinct.mp fits.distinct⟩,
    fun fits => ⟨stands.graphLike.mpr fits.graphLike, distinct.mpr fits.distinct⟩⟩

/-- The group that a call makes stands for what it was given: the next call takes it apart. -/
theorem group {g : Graph} (stands : StandsFor items n built m) (fits : Fits items)
    (grouped : Grouped built m g k) : StandsFor items n [g.toItem] k := by
  cases grouped with
  | @group number members contribute draws =>
    have whole := contribute.whole stands.older
    have numbers := draws.number_lt (older_pieces stands.older)
    have nodes : ∀ a ∈ (Graph.group number (.part (.own number) "members") members {}).nodes,
        a = .group number (.part (.own number) "members") members {} ∨ a ∈ nodesOfAll members := by
      intro a member
      simpa [Graph.nodes, nodesOfRedirects, nodesOfTarget?] using member
    refine ⟨fun {members'} contribute' => ?_, ?_, ?_, ⟨fun _ => fits.graphLike, fun _ i member => ?_⟩⟩
    · cases contribute' with
      | cons first rest =>
        cases rest
        cases first with
        | part isPart =>
          cases isPart
          rw [List.append_nil]
          exact stands.contribute contribute
        | leaf number isCommand => cases isCommand
    · -- The group has no redirects, so what it brings is its members again.
      have pieces : piecesOf [(Graph.group number (.part (.own number) "members") members {}).toItem] = members := by
        simp [piecesOf, Item.pieces, Item.part?, toItem, flatten, Redirects.isEmpty, Redirects.items, Redirects.get,
          Stream.all]
      rw [pieces]
      exact (stands.draws.trans draws).mono (Nat.le_succ number)
    · intro i member g isPart
      cases List.mem_singleton.mp member
      cases isPart
      refine ⟨fun a isNode => ?_, fun a isNode => ?_⟩ <;> rcases nodes a isNode with rfl | below
      · rfl
      · obtain ⟨h, isMember, inMember⟩ := mem_nodesOfAll.mp below
        exact whole h isMember a inMember
      · exact Nat.lt_succ_self number
      · exact Nat.lt_succ_of_lt (numbers a below)
    · cases List.mem_singleton.mp member
      exact ⟨0, _, 0, .part rfl⟩

end StandsFor

end Graph

namespace Bracketing

open Pipework.Graph

/-- The calls of the brackets are accepted if the items of every outermost bracket can be put together. -/
def IsAccepted : Bracketing → Prop
  | .item _ => True
  | .bracket first rest => Fits (first.items ++ itemsOfAll rest)

/-- What can be put together can be put into brackets. -/
theorem isAccepted_of_fits {b : Bracketing} (fits : Fits b.items) : b.IsAccepted := by
  cases b with
  | item i => trivial
  | bracket first rest =>
    rw [items] at fits
    exact fits

theorem all_isAccepted_of_fits {parts : List Bracketing} (fits : Fits (itemsOfAll parts)) :
    ∀ b ∈ parts, b.IsAccepted := by
  induction parts with
  | nil => exact fun b member => absurd member List.not_mem_nil
  | cons b rest ih =>
    rw [itemsOfAll] at fits
    exact List.forall_mem_cons.mpr ⟨isAccepted_of_fits fits.of_append.1, ih fits.of_append.2⟩

mutual

/-- What an argument is made of stands for its items, if the calls in it are accepted. -/
theorem settles_build : (b : Bracketing) → (n : Nat) → (∀ i ∈ b.items, i.IsOlder n) →
    b.build.Settles n b.IsAccepted fun i n' => StandsFor b.items n [i] n'
  | .item i, n, older => by
    rw [items] at older ⊢
    exact .pure (.self older)
  | .bracket first rest, n, older => by
    rw [items] at older ⊢
    rw [build]
    have olderFirst : ∀ i ∈ first.items, i.IsOlder n := fun i member => older i (List.mem_append_left _ member)
    have olderRest : ∀ i ∈ itemsOfAll rest, i.IsOlder n := fun i member => older i (List.mem_append_right _ member)
    -- The calls within come before the outer call looks at any item: it is settled by what was built, which stands
    -- for the items.
    have call {i : Item} {built : List Item} {m k : Nat} (stands : StandsFor first.items n [i] m)
        (standAll : StandsFor (itemsOfAll rest) m built k) :
        (do return (← Graph.parallel (i :: built)).toItem).Settles k (Fits (first.items ++ itemsOfAll rest))
          fun i n' => StandsFor (first.items ++ itemsOfAll rest) n [i] n' := by
      have both : StandsFor (first.items ++ itemsOfAll rest) n (i :: built) k := stands.append standAll
      have fits := both.fits older
      have made : (Graph.parallel (i :: built)).Settles k (Fits (first.items ++ itemsOfAll rest))
          (Grouped (i :: built) k) := (settles_parallel both.older).mono
        ⟨fun accepted => fits.mp accepted.2, fun accepted => ⟨List.cons_ne_nil _ _, fits.mpr accepted⟩⟩
        fun _ _ _ _ grouped => grouped
      exact made.map fun g n' _ accepted grouped => both.group accepted grouped
    refine Building.Settles.mono ((settles_build first n olderFirst).bind fun i m later _ stands =>
      (settles_buildAll rest m fun i member => (olderRest i member).mono later).bind fun built k _ _ standAll =>
        call stands standAll.1) ⟨fun accepted => accepted.2.2, fun fits => ?_⟩ fun _ _ _ _ made => made
    exact ⟨isAccepted_of_fits fits.of_append.1, all_isAccepted_of_fits fits.of_append.2, fits⟩

theorem settles_buildAll : (parts : List Bracketing) → (n : Nat) → (∀ i ∈ itemsOfAll parts, i.IsOlder n) →
    (buildAll parts).Settles n (∀ b ∈ parts, b.IsAccepted) fun built n' =>
      StandsFor (itemsOfAll parts) n built n' ∧ built.isEmpty = parts.isEmpty
  | [], n, _ => ⟨Nat.le_refl n, nofun, .self nofun, rfl⟩
  | b :: rest, n, older => by
    rw [itemsOfAll] at older ⊢
    rw [buildAll]
    have olderFirst : ∀ i ∈ b.items, i.IsOlder n := fun i member => older i (List.mem_append_left _ member)
    have olderRest : ∀ i ∈ itemsOfAll rest, i.IsOlder n := fun i member => older i (List.mem_append_right _ member)
    refine Building.Settles.mono ((settles_build b n olderFirst).bind fun i m later _ stands =>
      (settles_buildAll rest m fun i member => (olderRest i member).mono later).map ?_) List.forall_mem_cons.symm
      fun _ _ _ _ made => made
    rintro built k - - ⟨standAll, -⟩
    exact ⟨stands.append standAll, rfl⟩

end

theorem items_ne_nil : (b : Bracketing) → b.items ≠ []
  | .item _ => List.cons_ne_nil _ _
  | .bracket first _ => List.append_ne_nil_of_left_ne_nil (items_ne_nil first) _

theorem itemsOfAll_ne_nil {parts : List Bracketing} : itemsOfAll parts ≠ [] ↔ parts ≠ [] := by
  cases parts with
  | nil => simp [itemsOfAll]
  | cons b rest =>
    exact ⟨fun _ => List.cons_ne_nil _ _, fun _ => List.append_ne_nil_of_left_ne_nil (items_ne_nil b) _⟩

end Bracketing

/-! ## Equality -/

namespace Graph

/-- A group of what some items contribute. -/
inductive SideBySide (items : List Item) : Graph → Prop
  | group {number : Nat} {members : List Graph} (contribute : ContributeAll items members) :
    SideBySide items (.group number (.part (.own number) "members") members {})

theorem isSameSingle_self {v : Value} (single : v.isSingle = true) : v.isSameSingle v = true := by
  cases v with
  | none => rfl
  | bool b => exact beq_self_eq_true b
  | int n => exact beq_self_eq_true n
  | str t => exact beq_self_eq_true t
  | bytes b => exact beq_self_eq_true b
  | tuple items =>
    cases items with
    | nil => rfl
    | cons i rest => cases single
  | _ => cases single

/-- An item is the same as itself. -/
theorem isSame_self (i : Item) : i.isSame i = true := by
  obtain ⟨label, value⟩ := i
  unfold Labelled.isSame
  have apart (here : Bool) (single : here = true → value.isSingle = true) :
      (if here then value.isSameSingle value else label == label) = true := by
    cases here with
    | true => exact isSameSingle_self (single rfl)
    | false => exact beq_self_eq_true label
  cases value with
  | graph g => exact beq_self_eq_true g.number
  | object ref => exact beq_self_eq_true ref.id
  | _ => exact apart _ fun both => by simp_all

theorem alikeRedirects_self (m : Memory) (r : Redirects) : Redirects.alike m r r = true := by
  have one (t : Option (Labelled Target)) : Target.alike? m t t = true := by
    rcases t with _ | ⟨label, t⟩
    · rw [Target.alike?]
    · rw [Target.alike?, beq_self_eq_true, Bool.true_or]
  obtain ⟨stdin, stdout, stderr, label⟩ := r
  rw [Redirects.alike, one, one, one]
  rfl

theorem alikeAll_of_alike {m : Memory} {members members' : List Graph}
    (same : List.Forall₂ (fun g h => Graph.alike m g h = true) members members') :
    alikeAll m members members' = true := by
  induction same with
  | nil => rw [alikeAll]
  | cons here _ ih =>
    rw [alikeAll, here, ih]
    rfl

theorem alike_leaf (m : Memory) (n n' : Nat) (command : Item) (r : Redirects) :
    (leaf n command r).alike m (leaf n' command r) = true := by
  obtain ⟨label, value⟩ := command
  rw [alike, isSame_self, alikeRedirects_self]
  rfl

/-- A graph is equal to itself. -/
theorem alike_self (m : Memory) (g : Graph) : g.alike m g = true := by
  induction g using Graph.induction with
  | leaf number command r _ => exact alike_leaf m number number command r
  | pipe number left right r inLeft inRight _ =>
    rw [alike, inLeft, inRight, alikeRedirects_self]
    rfl
  | group number label members r inMembers _ =>
    rw [alike, alikeAll_of_alike (List.forall₂_same.mpr inMembers), alikeRedirects_self]
    rfl
  | unknown number name => rw [alike, beq_self_eq_true]
  | stray held =>
    obtain ⟨label, value⟩ := held
    rw [alike, isSame_self]
    rfl

/-- Leaves that were made for the same commands are equal. -/
theorem Alike.equal {g h : Graph} (same : g.Alike h) (m : Memory) : g.alike m h = true := by
  cases same with
  | refl => exact alike_self m g
  | leaf n n' command => exact alike_leaf m n n' command {}

/-- The members of a group; other graphs have none. -/
def members : Graph → List Graph
  | .group _ _ members _ => members
  | _ => []

/-- A graph with redirects of its own is never taken apart. -/
theorem SideBySide.mem_of_redirected {items : List Item} {g : Graph} (made : SideBySide items g) {i : Item}
    (member : i ∈ items) {h : Graph} (isPart : i.part? = some h) (redirected : h.redirects.isEmpty = false) :
    h ∈ g.members := by
  obtain ⟨contribute⟩ := made
  refine contribute.mem_of_piece (List.mem_flatMap.mpr ⟨i, member, ?_⟩)
  have alone : h.flatten = [h] := by
    cases h with
    | group number label members r => exact if_neg (Bool.eq_false_iff.mp redirected)
    | _ => rfl
  rw [Item.pieces, isPart, Option.toList_some, List.flatMap_singleton, alone]
  exact List.mem_singleton_self h

/-- Groups of what the same items contribute are equal. -/
theorem SideBySide.equal {items : List Item} {g h : Graph} (first : SideBySide items g) (second : SideBySide items h)
    (m : Memory) : g.alike m h = true := by
  obtain ⟨first⟩ := first
  obtain ⟨second⟩ := second
  have members := alikeAll_of_alike ((first.alike second).imp fun _ _ same => same.equal m)
  rw [alike, members, alikeRedirects_self]
  rfl

end Graph

/-! ## The same from nested calls and from one call -/

namespace Bracketing

open Pipework.Graph

theorem settles_parallel_of_items {items : List Item} {n : Nat} (older : ∀ i ∈ items, i.IsOlder n) :
    (Graph.parallel items).Settles n (items ≠ [] ∧ Fits items) fun g _ => SideBySide items g :=
  (settles_parallel older).mono .rfl fun _ _ _ _ ⟨contribute, _⟩ => .group contribute

/-- Nested calls are accepted exactly if one call of all the items is. -/
theorem settles_nested {parts : List Bracketing} {n : Nat} (older : ∀ i ∈ itemsOfAll parts, i.IsOlder n) :
    (parallel parts).Settles n (itemsOfAll parts ≠ [] ∧ Fits (itemsOfAll parts)) fun g _ =>
      SideBySide (itemsOfAll parts) g := by
  have call {built : List Item} {m : Nat} (stands : StandsFor (itemsOfAll parts) n built m)
      (sameLength : built.isEmpty = parts.isEmpty) :
      (Graph.parallel built).Settles m (itemsOfAll parts ≠ [] ∧ Fits (itemsOfAll parts)) fun g _ =>
        SideBySide (itemsOfAll parts) g := by
    have some : built ≠ [] ↔ itemsOfAll parts ≠ [] := by
      rw [itemsOfAll_ne_nil, ← List.isEmpty_eq_false_iff, ← List.isEmpty_eq_false_iff, sameLength]
    refine (settles_parallel stands.older).mono ?_ fun _ _ _ _ ⟨contribute, _⟩ => .group (stands.contribute contribute)
    rw [some, stands.fits older]
  refine Building.Settles.mono ((settles_buildAll parts n older).bind fun built m _ _ ⟨stands, sameLength⟩ =>
    call stands sameLength) ⟨And.right, fun both => ⟨all_isAccepted_of_fits both.2, both⟩⟩ fun _ _ _ _ made => made

end Bracketing

/-- **Brackets change nothing.** Nested calls are refused exactly if one call of all the items is. Otherwise both
make groups of what the items contribute, which are equal. -/
theorem Graph.bracketings_match {parts : List Bracketing} {n : Nat}
    (older : ∀ i ∈ Bracketing.itemsOfAll parts, i.IsOlder n) :
    (∃ e e', (Bracketing.parallel parts).run n = .error e ∧ e.IsRefusal ∧
      (Graph.parallel (Bracketing.itemsOfAll parts)).run n = .error e' ∧ e'.IsRefusal) ∨
    ∃ g g' n' n'', (Bracketing.parallel parts).run n = .ok (g, n') ∧
      (Graph.parallel (Bracketing.itemsOfAll parts)).run n = .ok (g', n'') ∧
      SideBySide (Bracketing.itemsOfAll parts) g ∧ SideBySide (Bracketing.itemsOfAll parts) g' := by
  have nested := Bracketing.settles_nested older
  have flat := Bracketing.settles_parallel_of_items older
  cases ran : (Bracketing.parallel parts).run n with
  | error e =>
    cases ran' : (Graph.parallel (Bracketing.itemsOfAll parts)).run n with
    | error e' => exact .inl ⟨e, e', rfl, (nested.error ran).2, rfl, (flat.error ran').2⟩
    | ok done => exact absurd (flat.ok ran').1 (nested.error ran).1
  | ok done =>
    cases ran' : (Graph.parallel (Bracketing.itemsOfAll parts)).run n with
    | error e' => exact absurd (nested.ok ran).1 (flat.error ran').1
    | ok done' => exact .inr ⟨_, _, _, _, rfl, rfl, (nested.ok ran).2, (flat.ok ran').2⟩

end Pipework
