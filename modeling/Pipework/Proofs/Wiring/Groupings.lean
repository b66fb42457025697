import Pipework.Proofs.Wiring.Abreast

/-!
# The walks of two groupings

The same chore, at its place in each of two groupings of a pipe, does the same in both walks (`Abreast.moved`).
So the walks of the two groupings come to the same end (`Regrouped.walks`): both do all their chores, or both
stop at the same chore, for the same reason, and until then they have tried the same commands in the same order,
on the same streams but for the numbers of descriptors.
-/

namespace Pipework

open Chore

theorem Graph.Alike.commandOf {g h : Graph} (alike : g.Alike h) : h.commandOf = g.commandOf := by
  cases alike with
  | refl => rfl
  | leaf n n' command =>
    obtain ⟨label, value⟩ := command
    cases value <;> rfl

namespace Wiring

variable {l r : Graph} {settings : StartSettings} {w₀ : World} {x y : Moment}
variable {chores chores' rest rest' : List Chore} {c c' : Chore}

section Start

variable {value : Claim → Descriptor} {leaf : Graph} {above : Lineage} {command : Command} {σ : Wiring} {w : World}

/-- What a walk asks of the system to start a command. -/
private def asked (value : Claim → Descriptor) (σ : Wiring) (leaf : Graph) (above : Lineage) (command : Command) :
    Sim.StartRequest := σ.requestOf command (contextOf value (leaf.nearest above))

private theorem tries_start (value : Claim → Descriptor) (σ : Wiring) (w : World) (above : Lineage)
    (isLeaf : leaf.commandOf = .ok command) : (Chore.start leaf above).tries value σ w =
      [⟨leaf, above, command, Sim.prepare w (asked value σ leaf above command)⟩] := by
  rw [Chore.tries, isLeaf]
  rfl

end Start

/-- Two chores match if both have been done and start the same. -/
private theorem Matches.done {σ σ' : Wiring} {w w' : World}
    (ran : (c.perform (l.values w₀.nextDescriptor)).exec x.wiring x.world = (.ok (), σ, w))
    (ran' : (c'.perform (r.values w₀.nextDescriptor)).exec y.wiring y.world = (.ok (), σ', w'))
    (resembles : w.Resembles w')
    (tries : List.Forall₂ (Start.Twin (l.renumber r w₀.nextDescriptor) (l.values w₀.nextDescriptor)
      (r.values w₀.nextDescriptor)) (c.tries (l.values w₀.nextDescriptor) x.wiring x.world)
      (c'.tries (r.values w₀.nextDescriptor) y.wiring y.world)) : Matches l r w₀ c c' x y := by
  refine ⟨?_, ?_, ?_, fun _ => tries⟩
  · rw [ran, ran']
  · rw [ran]
    exact nofun
  · rw [ran, ran']
    exact resembles

/-- Two chores match if both have failed in the same way. -/
private theorem Matches.failed {e : Failure} {σ σ' : Wiring} {w w' : World}
    (ran : (c.perform (l.values w₀.nextDescriptor)).exec x.wiring x.world = (.error e, σ, w))
    (ran' : (c'.perform (r.values w₀.nextDescriptor)).exec y.wiring y.world = (.error e, σ', w'))
    (noSpawn : ∀ failures, e ≠ .spawn failures) (resembles : w.Resembles w') : Matches l r w₀ c c' x y := by
  refine ⟨?_, ?_, ?_, ?_⟩
  · rw [ran, ran']
  · rw [ran]
    exact fun failures failed => noSpawn failures (Except.error.inj failed)
  · rw [ran, ran']
    exact resembles
  · rw [ran]
    exact nofun

section

variable (abreast : Abreast l r settings w₀ x y)
include abreast

/-- A pipe that is made in the first walk only. -/
theorem Abreast.edge_left {place : Place} (left : l.chores [] = x.done ++ .edge place :: rest) :
    Together l r settings w₀ [.edge place] [] x y := by
  obtain ⟨isLeft, isRight, resembles, twins⟩ := abreast
  have fit := isLeft.fit left
  rw [← List.singleton_append, makings_append] at fit
  refine .finished ⟨x.done ++ [.edge place], _, x.world.addPipe, _, _⟩ y ?_ rfl rfl
    (List.append_nil _).symm ⟨isLeft.step fit.left (.edge place), isRight,
      x.world.resembles_addPipe.symm.trans resembles, ?_⟩
  · rw [performAll_single, perform_edge]
    rfl
  · have none (value : Claim → Descriptor) (σ : Wiring) (w : World) : (edge place).tries value σ w = [] := rfl
    rw [none, List.append_nil]
    exact twins

/-- A pipe that is made in the second walk only. -/
theorem Abreast.edge_right {place : Place} (right : r.chores [] = y.done ++ .edge place :: rest) :
    Together l r settings w₀ [] [.edge place] x y := by
  obtain ⟨isLeft, isRight, resembles, twins⟩ := abreast
  have fit := isRight.fit right
  rw [← List.singleton_append, makings_append] at fit
  refine .finished x ⟨y.done ++ [.edge place], _, y.world.addPipe, _, _⟩ rfl ?_
    (List.append_nil _).symm rfl ⟨isLeft, isRight.step fit.left (.edge place),
      resembles.trans y.world.resembles_addPipe, ?_⟩
  · rw [performAll_single, perform_edge]
    rfl
  · have none (value : Claim → Descriptor) (σ : Wiring) (w : World) : (edge place).tries value σ w = [] := rfl
    rw [none, List.append_nil]
    exact twins

variable (regrouped : l.Regrouped r) (names : l.NamesNoNew w₀.nextDescriptor)
include regrouped names

/-- A command that can be tried is tried in both walks, and either started in both or in none. -/
private theorem Abreast.tried {leaf leaf' : Graph} {above above' : Lineage} {command : Command}
    (left : l.chores [] = x.done ++ .start leaf above :: rest)
    (right : r.chores [] = y.done ++ .start leaf' above' :: rest') (alike : leaf.Alike leaf')
    (nearest : ∀ s, leaf'.nearest above' s = (leaf.nearest above s).map Claim.regroup)
    (isLeaf : leaf.commandOf = .ok command) (isLeaf' : leaf'.commandOf = .ok command)
    (clean : command.args.any Sim.hasNull = false) :
    Matches l r w₀ (.start leaf above) (.start leaf' above') x y := by
  have resembles := abreast.resembles
  have settings : y.wiring.settings = x.wiring.settings :=
    abreast.right.roster.settings.trans abreast.left.roster.settings.symm
  have streams := abreast.left.streams_alike regrouped.carries names left nearest
  have reaches := abreast.left.reaches_alike regrouped.carries names left nearest abreast.right right
  have pids := resembles.prepare (asked (l.values w₀.nextDescriptor) x.wiring leaf above command)
    (asked (r.values w₀.nextDescriptor) y.wiring leaf' above' command) rfl
    (congrArg StartSettings.directory settings) (reaches .stdin _) (reaches .stdout _) (reaches .stderr _)
  have tries := tries_start (l.values w₀.nextDescriptor) x.wiring x.world above isLeaf
  have tries' := tries_start (r.values w₀.nextDescriptor) y.wiring y.world above' isLeaf'
  cases prepared : Sim.prepare x.world (asked (l.values w₀.nextDescriptor) x.wiring leaf above command) <;>
    cases prepared' : Sim.prepare y.world (asked (r.values w₀.nextDescriptor) y.wiring leaf' above' command) <;>
    rw [prepared, prepared'] at pids <;> rw [prepared] at tries <;> rw [prepared'] at tries'
  case error.ok => cases pids
  case ok.error => cases pids
  case error.error e e' =>
    cases pids
    obtain ⟨line, ran⟩ := exec_startLeaf_of_error clean prepared
    obtain ⟨line', ran'⟩ := exec_startLeaf_of_error clean prepared'
    refine .done ((perform_start isLeaf).trans ran) ((perform_start isLeaf').trans ran') ?_ ?_
    · exact resembles.between ((World.resembles_emit _ _).trans (World.resembles_written _ _))
        ((World.resembles_emit _ _).trans (World.resembles_written _ _))
    · rw [tries, tries']
      exact .cons ⟨alike, rfl, rfl, rfl⟩ .nil
  case ok.ok p p' =>
    have pid : p'.pid = p.pid := Except.ok.inj pids
    obtain ⟨line, ran⟩ := exec_startLeaf clean prepared
    obtain ⟨line', ran'⟩ := exec_startLeaf clean prepared'
    refine .done ((perform_start isLeaf).trans ran) ((perform_start isLeaf').trans ran') ?_ ?_
    · exact (resembles.addProcess p p' _ _).between (World.resembles_written _ _) (World.resembles_written _ _)
    · rw [tries, tries']
      exact .cons ⟨alike, rfl, congrArg Except.ok pid, contextOf_renamed streams command pid⟩ .nil

/-- A command is started in both walks or in none. -/
theorem Abreast.start {leaf leaf' : Graph} {above above' : Lineage}
    (left : l.chores [] = x.done ++ .start leaf above :: rest)
    (right : r.chores [] = y.done ++ .start leaf' above' :: rest') (alike : leaf.Alike leaf')
    (nearest : ∀ s, leaf'.nearest above' s = (leaf.nearest above s).map Claim.regroup) :
    Matches l r w₀ (.start leaf above) (.start leaf' above') x y := by
  have same := alike.commandOf
  cases isLeaf : leaf.commandOf with
  | error e =>
    have ran := perform_start_of_error (l.values w₀.nextDescriptor) above x.wiring x.world isLeaf
    have ran' := perform_start_of_error (r.values w₀.nextDescriptor) above' y.wiring y.world (same.trans isLeaf)
    rw [abreast.resembles.memory] at ran'
    exact .failed ran ran' (e.failure_ne_spawn _) abreast.resembles
  | ok command =>
    have isLeaf' := same.trans isLeaf
    by_cases null : command.args.any Sim.hasNull = true
    · exact .failed ((perform_start isLeaf).trans (exec_startLeaf_of_null null))
        ((perform_start isLeaf').trans (exec_startLeaf_of_null null)) nofun abreast.resembles
    · exact abreast.tried regrouped names left right alike nearest isLeaf isLeaf' (Bool.eq_false_iff.mpr null)

/-- The same chore, where it stands in each grouping, does the same in both walks. -/
theorem Abreast.moved (moved : c.Moved c') (left : l.chores [] = x.done ++ c :: rest)
    (right : r.chores [] = y.done ++ c' :: rest') : Matches l r w₀ c c' x y := by
  have resembles := abreast.resembles
  have piped : x.world.addPipe.Resembles y.world.addPipe :=
    resembles.between x.world.resembles_addPipe y.world.resembles_addPipe
  -- A graph that cannot be started is refused in words that depend on the memory, which is the same.
  have refused {α : Type} (e : BuildError) : (refuse e : Wire α).exec y.wiring y.world =
      (.error (e.failure x.world.memory), y.wiring, y.world) := by
    rw [← resembles.memory]
    rfl
  cases moved with
  | start alike nearest => exact abreast.start regrouped names left right alike nearest
  | refuse e => exact .failed rfl (refused e) (e.failure_ne_spawn _) resembles
  | edge place => exact .done (perform_edge _ _ _ _) (perform_edge _ _ _ _) piped .nil
  | redirect place s target =>
    cases target with
    | file path append =>
      obtain ⟨label, value⟩ := path
      cases value with
      | str name =>
        have open? := resembles.openError? name (fileMode s append)
        cases found : Sim.openError? x.world name (fileMode s append) with
        | none =>
          obtain ⟨line, ran⟩ := exec_resolveFile x.wiring label found
          obtain ⟨line', ran'⟩ := exec_resolveFile y.wiring label (open?.trans found)
          refine .done (perform_resolved ran) (perform_resolved ran') ?_ .nil
          exact (resembles.readyFile name (fileMode s append)).between
            ((World.resembles_addOpening _ _ _).trans (World.resembles_written _ _))
            ((World.resembles_addOpening _ _ _).trans (World.resembles_written _ _))
        | some e =>
          exact .failed (perform_unresolved (exec_resolveFile_of_error x.wiring found))
            (perform_unresolved (exec_resolveFile_of_error y.wiring (open?.trans found))) (by rintro _ ⟨⟩)
            (resembles.between (World.resembles_emit _ _) (World.resembles_emit _ _))
      | _ => exact .failed (e := .wrongType) rfl rfl nofun resembles
    | buffer held =>
      exact .done (perform_resolved (exec_resolveBuffer _ _ _ s)) (perform_resolved (exec_resolveBuffer _ _ _ s))
        piped .nil
    | graph g =>
      exact .done (perform_resolved (exec_resolveGraph _ _ s {})) (perform_resolved (exec_resolveGraph _ _ s {}))
        piped .nil
    | endpoint =>
      exact .done (perform_resolved (exec_resolveEndpoint _ _ s)) (perform_resolved (exec_resolveEndpoint _ _ s))
        piped .nil
    | stream held =>
      cases found : held.it.descriptor? with
      | some d =>
        exact .done (perform_resolved (exec_resolveStream _ _ found)) (perform_resolved (exec_resolveStream _ _ found))
          resembles .nil
      | none =>
        obtain ⟨e, noSpawn, ran⟩ := exec_resolveStream_of_none found
        exact .failed (perform_unresolved (ran _ _)) (perform_unresolved (ran _ _)) noSpawn resembles
    | unknown name => exact .failed rfl (perform_unresolved (refused _)) (BuildError.failure_ne_spawn _ _) resembles
    | stray held => exact .failed rfl (perform_unresolved (refused _)) (BuildError.failure_ne_spawn _ _) resembles

end

/-- Some chores, where they stand in each grouping, are done in both walks, or fail in both alike. -/
theorem Abreast.all (regrouped : l.Regrouped r) (names : l.NamesNoNew w₀.nextDescriptor)
    (moved : List.Forall₂ Chore.Moved chores chores') (abreast : Abreast l r settings w₀ x y)
    (left : l.chores [] = x.done ++ (chores ++ rest)) (right : r.chores [] = y.done ++ (chores' ++ rest')) :
    Together l r settings w₀ chores chores' x y := by
  induction moved generalizing x y with
  | nil => exact .finished _ _ rfl rfl (List.append_nil _).symm (List.append_nil _).symm abreast
  | @cons c c' later later' first _ ih =>
    refine (abreast.advance left right (abreast.moved regrouped names first left right)).append
      fun x' y' doneLeft doneRight abreast' => ih abreast' ?_ ?_
    · rw [left, doneLeft, List.append_assoc]
      rfl
    · rw [right, doneRight, List.append_assoc]
      rfl

/-- First some chores, and then all that are left. -/
private theorem Together.then_rest (first : Together l r settings w₀ chores chores' x y)
    (left : l.chores [] = x.done ++ (chores ++ rest)) (right : r.chores [] = y.done ++ (chores' ++ rest'))
    (second : ∀ x' y', l.chores [] = x'.done ++ rest → r.chores [] = y'.done ++ rest' →
      Abreast l r settings w₀ x' y' → Together l r settings w₀ rest rest' x' y') :
    Together l r settings w₀ (chores ++ rest) (chores' ++ rest') x y :=
  first.append fun x' y' doneLeft doneRight abreast =>
    second x' y' (by rw [left, doneLeft, List.append_assoc]) (by rw [right, doneRight, List.append_assoc]) abreast

/-- A walk at its beginning. -/
def Moment.start (settings : StartSettings) (w : World) : Moment := ⟨[], { settings }, w, [], []⟩

/-- **The walks of two groupings come to the same end.** -/
theorem walks_together (regrouped : l.Regrouped r) (names : l.NamesNoNew w₀.nextDescriptor) (sound : w₀.Sound)
    (settings : StartSettings) :
    Together l r settings w₀ (l.chores []) (r.chores []) (.start settings w₀) (.start settings w₀) := by
  obtain ⟨own, first, rest, first', rest', left, right, ownMoved, firstMoved, restMoved⟩ := regrouped.chores
  -- The pipe of the inner pipe node comes at another point of the walk, where nothing else is done.
  have left : l.chores [] = [] ++ (own ++ ([.edge []] ++ ([.edge [.left]] ++ (first ++ ([] ++ rest))))) := left
  have right : r.chores [] = [] ++ (own ++ ([.edge []] ++ ([] ++ (first' ++ ([.edge [.right]] ++ rest'))))) := right
  have start : Abreast l r settings w₀ (.start settings w₀) (.start settings w₀) :=
    ⟨.empty _ settings w₀ sound, .empty _ settings w₀ sound, ⟨rfl, rfl, rfl, rfl, rfl, rfl⟩, .nil⟩
  rw [left, right]
  refine (start.all regrouped names ownMoved left right).then_rest left right fun x y left right abreast => ?_
  refine .then_rest ?_ left right fun x y left right abreast => ?_
  · exact (abreast.edge_left left).append fun x' y' doneLeft doneRight abreast' =>
      abreast'.edge_right (right.trans (by rw [doneRight, List.append_nil]; rfl))
  refine (abreast.edge_left left).then_rest left right fun x y left right abreast => ?_
  refine (abreast.all regrouped names firstMoved left right).then_rest left right fun x y left right abreast => ?_
  refine (abreast.edge_right right).then_rest left right fun x y left right abreast => ?_
  rw [← List.append_nil rest] at left
  rw [← List.append_nil rest'] at right
  exact abreast.all regrouped names restMoved left right

end Wiring

end Pipework
