import Pipework.Proofs.Engine.Associativity
import Pipework.Proofs.Graph.Bracketing
import Pipework.Proofs.Wiring.Dissolving

/-!
# Putting graphs side by side

However graphs are put side by side in nested calls, one call of all of them is refused in the same cases and
makes an equal group otherwise. And taking a group apart that stands without redirects within another group
changes nothing about a start (`Engine.SameStart`).
-/

namespace Pipework

namespace Engine

/-- Two starts that do the same: they come to the same end, and leave the same system. Only the graph is another, in
the handle and in the log. -/
structure SameStart (g' : Graph) (x y : Except Failure Handle × Engine × World) : Prop where
  outcome : y.1 = x.1.map fun h => { h with graph := g' }
  engine : y.2.1 = x.2.1
  world : ∃ log, y.2.2 = { x.2.2 with log }

variable {g g' : Graph} {e : Engine} {w : World}

theorem SameStart.of_error (g' : Graph) (failure : Failure) (e : Engine) (w : World) :
    SameStart g' (.error failure, e, w) (.error failure, e, w) := ⟨rfl, rfl, w.log, rfl⟩

/-- Without further redirects a graph is started as it is. -/
theorem exec_building_alone (label : Label) (g : Graph) (w : World) :
    (building (Graph.redirect ⟨label, .graph g⟩ {} false)).exec w = (.ok g, w) := rfl

/-- Starts of graphs that are walked alike. -/
theorem sameStart_of_walk (walk : Wiring.walk {} g' = Wiring.walk {} g) (endpoints : checkEndpoints g' = checkEndpoints g)
    (label label' : Label) (e : Engine) (w : World) :
    SameStart g' ((spawn ⟨label, .graph g⟩ {}).exec e w) ((spawn ⟨label', .graph g'⟩ {}).exec e w) := by
  have wires : wire e.settings g' = wire e.settings g := by rw [wire, wire, walk]
  cases checked : checkEndpoints g with
  | error refusal =>
    rw [exec_spawn_of_unchecked e (exec_building_alone label g w) checked,
      exec_spawn_of_unchecked e (exec_building_alone label' g' w) (endpoints.trans checked)]
    exact .of_error _ _ _ _
  | ok _ =>
    have begins : Begins ⟨label, .graph g⟩ {} w g w := ⟨exec_building_alone label g w, checked⟩
    have begins' : Begins ⟨label', .graph g'⟩ {} w g' w := ⟨exec_building_alone label' g' w, endpoints.trans checked⟩
    rcases wired : (wire e.settings g).exec w with ⟨failure | σ, w₂⟩
    · rw [exec_spawn_of_error begins wired, exec_spawn_of_error begins' (wires ▸ wired)]
      exact .of_error _ _ _ _
    · -- From here on nothing asks for the graph but the handle and the last line of the log.
      obtain ⟨redirected, checked⟩ := begins
      obtain ⟨redirected', checked'⟩ := begins'
      have report (m : Memory) : BuildError.report m (.ok () : Except BuildError Unit) = .ok () := rfl
      simp only [spawn, Owning.exec_bind, Owning.exec_lift, redirected, redirected', checked, checked', Sim.exec_world,
        Sim.exec_ofExcept, report, Owning.exec_own, wires, wired]
      cases failed : σ.failures.isEmpty with
      | false =>
        simp only [Bool.not_false, if_true, Owning.exec_bind, Owning.exec_change, Owning.exec_liftRunOn]
        rcases Wiring.abort.exec σ w₂ with ⟨failure | _, σ', w₃⟩ <;> exact .of_error _ _ _ _
      | true =>
        have launched : (liftM (Handle.onPumps Pump.start σ.pumps) : Owning Engine (Except Failure Unit × List Pump)).exec
            e w₂ = (.ok (Id.run ((Handle.onPumps Pump.start σ.pumps).run w₂)).1, e,
              (Id.run ((Handle.onPumps Pump.start σ.pumps).run w₂)).2) := rfl
        simp only [Bool.not_true, Bool.false_eq_true, if_false, Owning.exec_bind, launched]
        rcases Id.run ((Handle.onPumps Pump.start σ.pumps).run w₂) with ⟨⟨failure | _, pumps⟩, w₃⟩
        · exact .of_error _ _ _ _
        · exact ⟨rfl, rfl, _, rfl⟩

/-- **Putting graphs side by side is associative, and flattening is harmless.** Nested calls for some graphs are refused
exactly if one call for all of them is. Otherwise both make a group of what the graphs contribute, and the two are
equal. A graph with redirects of its own contributes itself. Wherever a group without redirects is a member of
another group, replacing it by its members leaves the commands in their order and the graph as it is walked, and a
start does the same: it opens the same descriptors, and starts the same commands on the same streams. -/
theorem grouping_is_associative {parts : List Bracketing} {n : Nat}
    (older : ∀ i ∈ Bracketing.itemsOfAll parts, i.IsOlder n) :
    ((∃ refusal refusal', (Bracketing.parallel parts).run n = .error refusal ∧ refusal.IsRefusal ∧
        (Graph.parallel (Bracketing.itemsOfAll parts)).run n = .error refusal' ∧ refusal'.IsRefusal) ∨
      ∃ g g' m m', (Bracketing.parallel parts).run n = .ok (g, m) ∧
        (Graph.parallel (Bracketing.itemsOfAll parts)).run n = .ok (g', m') ∧
        (∀ memory, g.alike memory g' = true) ∧
        Graph.SideBySide (Bracketing.itemsOfAll parts) g ∧ Graph.SideBySide (Bracketing.itemsOfAll parts) g' ∧
        ∀ i ∈ Bracketing.itemsOfAll parts, ∀ h, i.part? = some h → h.redirects.isEmpty = false →
          h ∈ g.members ∧ h ∈ g'.members) ∧
    ∀ g g' : Graph, g.Dissolves g' →
      g'.leaves.map Graph.held? = g.leaves.map Graph.held? ∧
      (∀ c, Wiring.walk c g' = Wiring.walk c g) ∧
      ∀ (label label' : Label) (e : Engine) (w : World),
        SameStart g' ((spawn ⟨label, .graph g⟩ {}).exec e w) ((spawn ⟨label', .graph g'⟩ {}).exec e w) := by
  refine ⟨?_, fun g g' dissolves => ⟨dissolves.leaves, dissolves.walk,
    sameStart_of_walk (dissolves.walk {}) dissolves.checkEndpoints⟩⟩
  rcases Graph.bracketings_match older with refused | ⟨g, g', m, m', nested, flat, made, made'⟩
  · exact .inl refused
  · exact .inr ⟨g, g', m, m', nested, flat, made.equal made', made, made', fun i member h isPart redirected =>
      ⟨made.mem_of_redirected member isPart redirected, made'.mem_of_redirected member isPart redirected⟩⟩

/-- A group with redirects of its own. -/
def errorsGroup : Graph := .group 1 (.constant "members") [.leaf 0 (letterItem 'a') {}] (errorsTo 1)

/-- That group within brackets, and commands before and behind it. -/
def bracketedTrio : List Bracketing :=
  [.bracket (.item (letterItem 'b')) [.item errorsGroup.toItem], .item (letterItem 'a')]

/-- Two commands with that group between them. -/
def sideTrio (number last : Nat) : Graph :=
  .group number (.part (.own number) "members")
    [.leaf 2 (letterItem 'b') {}, errorsGroup, .leaf last (letterItem 'a') {}] {}

/-- The same, with the bracket for a group of its own. -/
def nestedTrio : Graph :=
  .group 4 (.constant "outer")
    [.group 5 (.constant "inner") [.leaf 2 (letterItem 'b') {}, errorsGroup] {}, .leaf 3 (letterItem 'a') {}] {}

private theorem bracketedTrio_isOlder : ∀ i ∈ Bracketing.itemsOfAll bracketedTrio, i.IsOlder 2 := by
  have command (c : Char) : (letterItem c).IsOlder 2 := fun _ isPart => by cases isPart
  have group : errorsGroup.toItem.IsOlder 2 := by
    rintro _ ⟨⟩
    refine ⟨fun a member => ?_, fun a member => ?_⟩ <;>
    · rcases List.mem_cons.mp member with rfl | below
      · decide
      · cases List.mem_singleton.mp below
        decide
  intro i member
  rcases member with _ | ⟨_, _ | ⟨_, _ | ⟨_, none⟩⟩⟩
  · exact command 'b'
  · exact group
  · exact command 'a'
  · cases none

/-- The bracket is gone, and the group with redirects is not. -/
theorem bracketed_trio_is_flat :
    (Bracketing.parallel bracketedTrio).run 2 = .ok (sideTrio 5 4, 6) ∧
      (Graph.parallel (Bracketing.itemsOfAll bracketedTrio)).run 2 = .ok (sideTrio 4 3, 5) ∧
      (sideTrio 5 4).alike {} (sideTrio 4 3) = true ∧ errorsGroup ∈ (sideTrio 5 4).members ∧
      SameStart (sideTrio 4 3) (smallStart nestedTrio) (smallStart (sideTrio 4 3)) ∧
      startedBy (smallStart (sideTrio 4 3)).2.2.events = [1001, 1002, 1003] := by
  have whole := grouping_is_associative bracketedTrio_isOlder
  have same : nestedTrio.Dissolves (sideTrio 4 3) :=
    @Graph.Dissolves.member [] _ _ _ 4 4 5 _ _ _ {} rfl
  have started := (whole.2 _ _ same).2.2 (.own 4) (.own 4) {} (smallWorld ['a', 'b'])
  rcases whole.1 with ⟨refusal, refusal', refused, -⟩ | ⟨g, g', m, m', nested, flat, equal, -, -, kept⟩
  · cases refused
  · cases nested
    cases flat
    exact ⟨rfl, rfl, equal {}, (kept errorsGroup.toItem (.tail _ (.head _)) errorsGroup rfl rfl).1, started,
      by decide +kernel⟩

end Engine

end Pipework
