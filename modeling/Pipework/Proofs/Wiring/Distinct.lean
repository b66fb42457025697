import Pipework.Proofs.Graph.Nodes
import Pipework.Proofs.Wiring.Chores

/-!
# No claim comes up twice

The claims of a graph belong to its nodes, and different parts of a graph stand at different places.
So what the chores of a graph open goes to different claims, and the assignment of descriptors to
claims is a function.
-/

namespace Pipework

namespace Chore

/-- The claims on what some chores make, in order. -/
def claims (chores : List Chore) : List Claim := (makings chores).flatMap Making.claims

@[simp] theorem claims_append (a b : List Chore) : claims (a ++ b) = claims a ++ claims b := by
  simp [claims]

/-- Claims that belong to the nodes at a place and below it, none of them twice. -/
structure Apart (place : Place) (claims : List Claim) : Prop where
  below : ∀ c ∈ claims, place <:+ c.place
  distinct : claims.Nodup

/-- Claims that belong to nodes below a place, on turns of some kind, none of them twice. -/
private structure Turned (place : Place) (kind : Turn → Prop) (claims : List Claim) : Prop where
  turned : ∀ c ∈ claims, ∃ t, kind t ∧ (t :: place) <:+ c.place
  distinct : claims.Nodup

theorem turn_unique {t u : Turn} {place q : Place} (first : (t :: place) <:+ q)
    (second : (u :: place) <:+ q) :
    t = u := by
  have part := List.suffix_of_suffix_length_le first second (Nat.le_refl _)
  have same := part.eq_of_length rfl
  exact (List.cons.inj same).1

private theorem Turned.none (place : Place) (kind : Turn → Prop) :
    Turned place kind [] := ⟨by simp, List.nodup_nil⟩

private theorem Turned.append {place : Place} {kind other : Turn → Prop} {a b : List Claim}
    (first : Turned place kind a) (second : Turned place other b)
    (disjoint : ∀ t, kind t → ¬ other t) :
    Turned place (fun t => kind t ∨ other t) (a ++ b) where
  turned c member := by
    rcases List.mem_append.mp member with left | right
    · obtain ⟨t, isKind, suffix⟩ := first.turned c left
      exact ⟨t, .inl isKind, suffix⟩
    · obtain ⟨t, isKind, suffix⟩ := second.turned c right
      exact ⟨t, .inr isKind, suffix⟩
  distinct := by
    refine List.nodup_append.mpr ⟨first.distinct, second.distinct, ?_⟩
    rintro c left _ right rfl
    obtain ⟨t, isKind, suffix⟩ := first.turned c left
    obtain ⟨u, isOther, suffix'⟩ := second.turned c right
    exact disjoint t isKind (turn_unique suffix suffix' ▸ isOther)

private theorem Apart.turned {t : Turn} {place : Place} {claims : List Claim}
    (apart : Apart (t :: place) claims) :
    Turned place (· = t) claims :=
  ⟨fun c member => ⟨t, rfl, apart.below c member⟩, apart.distinct⟩

/-- Claims that belong to one node, none of them twice. -/
structure Own (place : Place) (claims : List Claim) : Prop where
  here : ∀ c ∈ claims, c.place = place
  distinct : claims.Nodup

/-- What a node claims itself stays apart from what the parts below it claim. -/
private theorem Turned.apart {place : Place} {kind : Turn → Prop} {own parts : List Claim}
    (turned : Turned place kind parts) (mine : Own place own) : Apart place (own ++ parts) where
  below c member := by
    rcases List.mem_append.mp member with isOwn | part
    · simp only [mine.here c isOwn, List.suffix_rfl]
    · obtain ⟨t, _, suffix⟩ := turned.turned c part
      exact (List.suffix_cons t place).trans suffix
  distinct := by
    refine List.nodup_append.mpr ⟨mine.distinct, turned.distinct, ?_⟩
    rintro c isOwn _ part rfl
    obtain ⟨t, _, suffix⟩ := turned.turned c part
    have long := suffix.length_le
    rw [mine.here c isOwn, List.length_cons] at long
    omega

theorem claims_cons (c : Chore) (rest : List Chore) :
    claims (c :: rest) = (c.making?.toList.flatMap Making.claims) ++ claims rest := by
  cases made : c.making? <;> simp [claims, makings, made]

/-- The ways in which a redirect makes something. -/
theorem making?_cases {place : Place} {s : Stream} {t : Target} {m : Making}
    (made : t.making? place s = some m) :
    (∃ name mode, m = .file name mode (.near place s)) ∨
      (s = .stdin ∧ m = .pipe (.near place s) (.far place s)) ∨
      m = .pipe (.far place s) (.near place s) ∨ ∃ value, m = .given value (.near place s) := by
  unfold Target.making? at made
  split at made
  · exact .inl ⟨_, _, (Option.some.inj made).symm⟩
  · cases made
  iterate 3
    · split at made
      · next isStdin => exact .inr (.inl ⟨isStdin, (Option.some.inj made).symm⟩)
      · exact .inr (.inr (.inl (Option.some.inj made).symm))
  · obtain ⟨value, _, rfl⟩ := Option.map_eq_some_iff.mp made
    exact .inr (.inr (.inr ⟨value, rfl⟩))
  · cases made
  · cases made

/-- What the redirect of one stream claims. -/
private theorem claims_redirect (place : Place) (s : Stream) (t : Target) :
    (∀ c ∈ claims [.redirect place s t], c = .near place s ∨ c = .far place s) ∧
      (claims [.redirect place s t]).Nodup := by
  rw [claims_cons, making?]
  cases made : t.making? place s with
  | none => exact ⟨by simp [claims, makings], by simp [claims, makings]⟩
  | some m =>
    rcases making?_cases made with ⟨name, mode, rfl⟩ | ⟨-, rfl⟩ | rfl | ⟨value, rfl⟩ <;>
      simp [claims, makings, Making.claims]

private theorem claims_ofItems (place : Place) (items : List (Stream × Labelled Target))
    (streams : (items.map (·.1)).Nodup) :
    (∀ c ∈ claims (items.map fun (s, t) => .redirect place s t.it),
      ∃ s ∈ items.map (·.1), c = .near place s ∨ c = .far place s) ∧
      (claims (items.map fun (s, t) => .redirect place s t.it)).Nodup := by
  induction items with
  | nil => exact ⟨by simp [claims, makings], List.nodup_nil⟩
  | cons item rest ih =>
    obtain ⟨s, t⟩ := item
    rw [List.map_cons, List.nodup_cons] at streams
    obtain ⟨fromRest, distinct⟩ := ih streams.2
    obtain ⟨fromFirst, distinctFirst⟩ := claims_redirect place s t.it
    have split : claims (((s, t) :: rest).map fun (s, t) => Chore.redirect place s t.it)
        = claims [.redirect place s t.it] ++ claims (rest.map fun (s, t) =>
          Chore.redirect place s t.it) := by
      rw [← claims_append]
      rfl
    rw [split]
    refine ⟨?_, List.nodup_append.mpr ⟨distinctFirst, distinct, ?_⟩⟩
    · intro c member
      rcases List.mem_append.mp member with first | later
      · exact ⟨s, List.mem_cons_self, fromFirst c first⟩
      · obtain ⟨u, known, isClaim⟩ := fromRest c later
        exact ⟨u, List.mem_cons_of_mem s known, isClaim⟩
    · rintro c first _ later rfl
      obtain ⟨u, known, isClaim⟩ := fromRest c later
      have other : s ≠ u := fun same => streams.1 (same ▸ known)
      rcases fromFirst c first with rfl | rfl <;> rcases isClaim with same | same <;> cases same <;>
        exact other rfl

private theorem claims_ofRedirects (place : Place) (r : Redirects) :
    (∀ c ∈ claims (ofRedirects place r), ∃ s, c = .near place s ∨ c = .far place s) ∧
      (claims (ofRedirects place r)).Nodup := by
  have streams : (r.items.map (·.1)).Nodup := by
    have sub : (r.items.map (·.1)).Sublist Stream.all := by
      have same : r.items.map (·.1) = Stream.all.filter fun s => (r.get s).isSome := by
        rw [Redirects.items, List.map_filterMap]
        rw [← List.filterMap_eq_filter]
        congr 1
        funext s
        cases found : r.get s <;> simp [Option.guard, found]
      rw [same]
      exact List.filter_sublist
    exact sub.nodup (by decide)
  obtain ⟨known, distinct⟩ := claims_ofItems place r.items streams
  refine ⟨fun c member => ?_, distinct⟩
  obtain ⟨s, _, isClaim⟩ := known c member
  exact ⟨s, isClaim⟩

private theorem own_redirects (place : Place) (r : Redirects) :
    Own place (claims (ofRedirects place r)) where
  here c member := by
    obtain ⟨s, rfl | rfl⟩ := (claims_ofRedirects place r).1 c member <;> rfl
  distinct := (claims_ofRedirects place r).2

private theorem own_edge (place : Place) (r : Redirects) :
    Own place (claims (ofRedirects place r ++ [.edge place])) := by
  have edge : claims [.edge place] = [.reading place, .writing place] := rfl
  obtain ⟨here, distinct⟩ := own_redirects place r
  rw [claims_append, edge]
  refine ⟨fun c member => ?_, List.nodup_append.mpr ⟨distinct, by simp, ?_⟩⟩
  · rcases List.mem_append.mp member with mine | ofEdge
    · exact here c mine
    · simp only [List.mem_cons, List.not_mem_nil, or_false] at ofEdge
      rcases ofEdge with rfl | rfl <;> rfl
  · rintro c mine d ofEdge rfl
    obtain ⟨s, rfl | rfl⟩ := (claims_ofRedirects place r).1 c mine <;> simp at ofEdge

theorem choresOfTarget?_of_attached {r : Redirects} {s : Stream} {g : Graph} (above : Lineage)
    (attached : r.attached? s = some g) :
    Graph.choresOfTarget? above (r.get s) = g.chores above := by
  obtain ⟨⟨label, target⟩, found, leads⟩ := Option.bind_eq_some_iff.mp attached
  rw [found]
  cases target <;> cases leads
  rfl

theorem choresOfTarget?_of_none {r : Redirects} {s : Stream} (above : Lineage)
    (attached : r.attached? s = none) : Graph.choresOfTarget? above (r.get s) = [] := by
  unfold Redirects.attached? at attached
  cases found : r.get s with
  | none => rfl
  | some t =>
    obtain ⟨label, target⟩ := t
    rw [found] at attached
    cases target <;> first | rfl | cases attached

theorem choresOfRedirects_eq (owner : Graph) (above : Lineage) (r : Redirects) :
    Graph.choresOfRedirects owner above r
      = Graph.choresOfTarget? ((.attached .stdin, owner) :: above) (r.get .stdin)
        ++ (Graph.choresOfTarget? ((.attached .stdout, owner) :: above) (r.get .stdout)
          ++ Graph.choresOfTarget? ((.attached .stderr, owner) :: above) (r.get .stderr)) := by
  obtain ⟨stdin, stdout, stderr, label⟩ := r
  rfl

section Parts

/-! What is said of the chores of the parts of a node by claims that stand for them. -/

variable {f : List Chore → List Claim} (none : f [] = []) (split : ∀ a b, f (a ++ b) = f a ++ f b)
include none split

private theorem turned_choresOfRedirects (owner : Graph) (above : Lineage) (r : Redirects)
    (apart : ∀ s g, r.attached? s = some g → ∀ l, Apart l.place (f (g.chores l))) :
    Turned above.place (fun t => ∃ s, t = .attached s)
      (f (Graph.choresOfRedirects owner above r)) := by
  have target (s : Stream) : Turned above.place (· = .attached s)
      (f (Graph.choresOfTarget? ((.attached s, owner) :: above) (r.get s))) := by
    cases attached : r.attached? s with
    | none =>
      rw [choresOfTarget?_of_none _ attached, none]
      exact .none _ _
    | some g =>
      rw [choresOfTarget?_of_attached _ attached]
      exact (apart s g attached ((.attached s, owner) :: above)).turned
  rw [choresOfRedirects_eq, split, split]
  have all := (target .stdin).append ((target .stdout).append (target .stderr) (by simp)) (by simp)
  refine ⟨fun c member => ?_, all.distinct⟩
  obtain ⟨t, isKind, suffix⟩ := all.turned c member
  rcases isKind with rfl | rfl | rfl
  · exact ⟨_, ⟨.stdin, rfl⟩, suffix⟩
  · exact ⟨_, ⟨.stdout, rfl⟩, suffix⟩
  · exact ⟨_, ⟨.stderr, rfl⟩, suffix⟩

private theorem turned_choresOfMembers (owner : Graph) (above : Lineage) (index : Nat)
    (members : List Graph) (apart : ∀ g ∈ members, ∀ l, Apart l.place (f (g.chores l))) :
    Turned above.place (fun t => ∃ i, index ≤ i ∧ t = .member i)
      (f (Graph.choresOfMembers owner above index members)) := by
  induction members generalizing index with
  | nil =>
    rw [Graph.choresOfMembers, none]
    exact .none _ _
  | cons g rest ih =>
    have first := (apart g List.mem_cons_self ((.member index, owner) :: above)).turned
    have later := ih (index + 1) fun g member => apart g (List.mem_cons_of_mem _ member)
    have all := first.append later (by
      rintro t rfl ⟨i, le, same⟩
      cases same
      omega)
    rw [Graph.choresOfMembers, split]
    refine ⟨fun c member => ?_, all.distinct⟩
    obtain ⟨t, rfl | ⟨i, le, rfl⟩, suffix⟩ := all.turned c member
    · exact ⟨_, ⟨index, Nat.le_refl _, rfl⟩, suffix⟩
    · exact ⟨_, ⟨i, by omega, rfl⟩, suffix⟩

/-- What belongs to single nodes stays apart in a graph. -/
theorem apart_of_own
    (leaf : ∀ number command r above, Own (Lineage.place above)
      (f (ofRedirects (Lineage.place above) r ++ [.start (.leaf number command r) above])))
    (pipe : ∀ place r, Own place (f (ofRedirects place r ++ [.edge place])))
    (group : ∀ place r, Own place (f (ofRedirects place r)))
    (refuse : ∀ e, f [.refuse e] = []) (g : Graph) (above : Lineage) :
    Apart above.place (f (g.chores above)) := by
  induction g using Graph.induction generalizing above with
  | leaf number command r attached =>
    have below := turned_choresOfRedirects none split (.leaf number command r) above r attached
    rw [Graph.chores, List.append_cons, split]
    exact below.apart (leaf number command r above)
  | pipe number left right r inLeft inRight attached =>
    have below := (inLeft ((.left, .pipe number left right r) :: above)).turned.append
      ((inRight ((.right, .pipe number left right r) :: above)).turned.append
        (turned_choresOfRedirects none split (.pipe number left right r) above r attached)
        (by simp)) (by simp)
    rw [Graph.chores, List.append_cons, split, split (left.chores _), split (right.chores _)]
    exact below.apart (pipe above.place r)
  | group number label members r inMembers attached =>
    have below := (turned_choresOfMembers none split (.group number label members r) above 0 members
        inMembers).append
      (turned_choresOfRedirects none split (.group number label members r) above r attached) (by simp)
    rw [Graph.chores, split, split]
    exact below.apart (group above.place r)
  | unknown number name =>
    rw [Graph.chores, refuse]
    exact ⟨by simp, List.nodup_nil⟩
  | stray held =>
    rw [Graph.chores, refuse]
    exact ⟨by simp, List.nodup_nil⟩

end Parts

/-- The claims of a graph belong to its nodes, and none of them comes up twice. -/
theorem apart_chores (g : Graph) (above : Lineage) : Apart above.place (claims (g.chores above)) := by
  refine apart_of_own rfl claims_append (fun number command r above => ?_) own_edge own_redirects
    (fun e => rfl) g above
  have start : claims [.start (.leaf number command r) above] = [] := rfl
  rw [claims_append, start, List.append_nil]
  exact own_redirects above.place r

/-- The leaves among some chores, each by a claim that it could make. -/
def places (chores : List Chore) : List Claim :=
  chores.filterMap fun
    | .start _ above => some (.near above.place .stdin)
    | _ => none

private theorem places_ofRedirects (place : Place) (r : Redirects) :
    places (ofRedirects place r) = [] := by
  refine List.filterMap_eq_nil_iff.mpr fun c member => ?_
  obtain ⟨item, _, rfl⟩ := List.mem_map.mp member
  rfl

/-- The leaves of a graph stand below it, no two at one place. -/
theorem apart_leaves (g : Graph) (above : Lineage) : Apart above.place (places (g.chores above)) := by
  have split (a b : List Chore) : places (a ++ b) = places a ++ places b := List.filterMap_append
  refine apart_of_own rfl split (fun number command r above => ?_) (fun place r => ?_)
    (fun place r => ?_) (fun e => rfl) g above
  · have start : places [.start (.leaf number command r) above] = [.near above.place .stdin] := rfl
    rw [split, places_ofRedirects, start]
    exact ⟨by simp [Claim.place], by simp⟩
  · have edge : places [.edge place] = [] := rfl
    rw [split, places_ofRedirects, edge]
    exact ⟨by simp, List.nodup_nil⟩
  · rw [places_ofRedirects]
    exact ⟨by simp, List.nodup_nil⟩

theorem suffix_of_start {g leaf : Graph} {above l : Lineage}
    (member : .start leaf l ∈ g.chores above) : above.place <:+ l.place :=
  (apart_leaves g above).below (.near l.place .stdin) (List.mem_filterMap.mpr ⟨_, member, rfl⟩)

end Chore

/-! ## What the claims get -/

/-- An assignment that gives the claims on some makings what they get from the next descriptor
on. -/
def Making.Fit (value : Claim → Descriptor) (next : Nat) (makings : List Making) : Prop :=
  ∀ e ∈ assign next makings, value e.1 = e.2

theorem Making.Fit.left {value : Claim → Descriptor} {next : Nat} {a b : List Making}
    (fit : Fit value next (a ++ b)) : Fit value next a := fun e member =>
  fit e (by rw [assign_append]; exact List.mem_append_left _ member)

theorem Making.Fit.right {value : Claim → Descriptor} {next : Nat} {a b : List Making}
    (fit : Fit value next (a ++ b)) : Fit value (next + sizes a) b := fun e member =>
  fit e (by rw [assign_append]; exact List.mem_append_right _ member)

theorem Making.Fit.pipe {value : Claim → Descriptor} {next : Nat} {reading writing : Claim}
    (fit : Fit value next [.pipe reading writing]) :
    value reading = .number next ∧ value writing = .number (next + 1 : Nat) :=
  ⟨fit (reading, .number next) (.head _),
    fit (writing, .number (next + 1 : Nat)) (.tail _ (.head _))⟩

theorem Making.Fit.file {value : Claim → Descriptor} {next : Nat} {name : Text} {mode : FileMode}
    {claim : Claim} (fit : Fit value next [.file name mode claim]) : value claim = .number next :=
  fit (claim, .number next) (.head _)

theorem Making.Fit.given {value : Claim → Descriptor} {next : Nat} {d : Descriptor} {claim : Claim}
    (fit : Fit value next [.given d claim]) : value claim = d :=
  fit (claim, d) (.head _)

/-- A descriptor of the caller stays what it is. -/
theorem Making.Fit.of_given {value : Claim → Descriptor} {next : Nat} {makings : List Making}
    {d : Descriptor} {claim : Claim} (fit : Fit value next makings)
    (member : .given d claim ∈ makings) : value claim = d := by
  obtain ⟨before, after, rfl⟩ := List.append_of_mem member
  rw [← List.singleton_append] at fit
  exact fit.right.left.given

private theorem lookup_of_mem {entries : List (Claim × Descriptor)}
    (distinct : (entries.map (·.1)).Nodup) {e : Claim × Descriptor} (member : e ∈ entries) :
    entries.lookup e.1 = some e.2 := by
  induction entries with
  | nil => cases member
  | cons first rest ih =>
    rw [List.map_cons, List.nodup_cons] at distinct
    rcases List.mem_cons.mp member with rfl | later
    · exact List.lookup_cons_self
    · have other : e.1 ≠ first.1 := fun same => distinct.1 (same ▸ List.mem_map_of_mem later)
      rw [List.lookup_cons, beq_eq_false_iff_ne.mpr other]
      exact ih distinct.2 later

theorem Graph.fit_values (g : Graph) (next : Nat) :
    Making.Fit (g.values next) next (Chore.makings (g.chores [])) := by
  intro e member
  have distinct : ((Making.assign next (Chore.makings (g.chores []))).map (·.1)).Nodup := by
    rw [Making.map_fst_assign]
    exact (Chore.apart_chores g []).distinct
  rw [values, lookup_of_mem distinct member, Option.getD_some]

end Pipework
