import Pipework.Proofs.Wiring.Progress

/-!
# Which chores can be done

Whether a chore can be done depends on the system in which the walk starts, and on the files that were made on the
way: a file that is read has to be there by then (`Chore.Doable`). Nothing else that a walk does stands in the way of
a later chore. So a walk comes to its end exactly if each of its chores can be done after those before it
(`Chore.performAll_ok_iff`), and a walk that does not has no failed commands to tell of.
-/

namespace Pipework

/-! ## Files -/

/-- A system in which some more files were made. The same may be started, and the same is denied. -/
structure World.Filed (w : World) (names : List Text) (w' : World) : Prop where
  directories : w'.directories = w.directories
  denied : w'.denied = w.denied
  programs : w'.programs = w.programs
  files : ∀ name, (w'.file? name).isSome ↔ (w.file? name).isSome ∨ name ∈ names

namespace World

theorem Filed.of_same {w w' : World} (directories : w'.directories = w.directories) (denied : w'.denied = w.denied)
    (programs : w'.programs = w.programs) (files : w'.files = w.files) : w.Filed [] w' :=
  ⟨directories, denied, programs, fun name => by rw [file?, file?, files]; simp⟩

theorem Filed.trans {w w' w'' : World} {names more : List Text} (first : w.Filed names w') (second : w'.Filed more w'') :
    w.Filed (names ++ more) w'' :=
  ⟨second.directories.trans first.directories, second.denied.trans first.denied, second.programs.trans first.programs,
    fun name => by rw [second.files, first.files, List.mem_append, or_assoc]⟩

theorem file?_isSome {w : World} {name : Text} : (w.file? name).isSome ↔ name ∈ w.files.map (·.1) := by
  rw [file?, Option.isSome_map, List.find?_isSome]
  simp

/-- A file that was put is there, besides those that were there before. -/
theorem file?_putFile (w : World) (name other : Text) (b : Bytes) :
    ((w.putFile name b).file? other).isSome ↔ (w.file? other).isSome ∨ other = name := by
  rw [file?_isSome, file?_isSome, putFile]
  split
  · next there =>
    have same : (w.files.map fun f => if f.1 == name then (f.1, b) else f).map (·.1) = w.files.map (·.1) := by
      rw [List.map_map]
      exact List.map_congr_left fun f _ => by simp only [Function.comp_apply]; split <;> rfl
    have isFile : name ∈ w.files.map (·.1) := by simpa using there
    change other ∈ (w.files.map fun f => if f.1 == name then (f.1, b) else f).map (·.1) ↔ _
    rw [same]
    exact ⟨.inl, fun either => either.elim id fun isName => isName ▸ isFile⟩
  · simp

theorem filed_putFile (w : World) (name : Text) (b : Bytes) : w.Filed [name] (w.putFile name b) := by
  have files := fun other => w.file?_putFile name other b
  refine ⟨?_, ?_, ?_, fun other => by rw [files, List.mem_singleton]⟩ <;> unfold putFile <;> split <;> rfl

theorem filed_readyFile (w : World) (name : Text) (mode : FileMode) :
    w.Filed (if mode = .read then [] else [name]) (w.readyFile name mode) := by
  cases mode with
  | read => exact .of_same rfl rfl rfl rfl
  | write => exact w.filed_putFile name []
  | append => exact w.filed_putFile name _

end World

/-- A file can be opened if nothing forbids it, and it is there where it is to be read. -/
theorem Sim.openError?_eq_none {w : World} {name : Text} {mode : FileMode} : openError? w name mode = none ↔
    name ∉ w.denied ∧ name ∉ w.directories ∧ name.isEmpty = false ∧ (mode = .read → (w.file? name).isSome) := by
  rw [openError?]
  by_cases denied : name ∈ w.denied <;> by_cases directory : name ∈ w.directories <;>
    cases empty : name.isEmpty <;> by_cases read : mode = .read <;> cases found : w.file? name <;> simp_all

/-- What can be opened where some more files were made. -/
theorem World.Filed.openError?_eq_none {w w' : World} {names : List Text} (filed : w.Filed names w') {name : Text}
    {mode : FileMode} : Sim.openError? w' name mode = none ↔
      Sim.openError? w name .write = none ∧ (mode = .read → (w.file? name).isSome ∨ name ∈ names) := by
  rw [Sim.openError?_eq_none, Sim.openError?_eq_none, filed.denied, filed.directories, filed.files]
  simp [and_assoc]

/-! ## Chores -/

/-- What is to be made can be made in a system in which some more files were made. -/
def Making.Possible (w : World) (names : List Text) : Making → Prop
  | file name mode _ => Sim.openError? w name .write = none ∧ (mode = .read → (w.file? name).isSome ∨ name ∈ names)
  | _ => True

/-- The file that is there once something is made. -/
def Making.filed : Making → List Text
  | file name mode _ => if mode = .read then [] else [name]
  | _ => []

namespace Chore

open Wiring

/-- A chore can be done in a system in which some more files were made. -/
def Doable (w : World) (names : List Text) : Chore → Prop
  | redirect place s target => ∃ m, target.making? place s = some m ∧ m.Possible w names
  | edge _ => True
  | start leaf _ => ∃ command, leaf.commandOf = .ok command ∧ command.args.any Sim.hasNull = false
  | refuse _ => False

/-- The files that are there once a chore is done. -/
def filed (c : Chore) : List Text := c.making?.toList.flatMap Making.filed

variable {value : Claim → Descriptor} {c : Chore} {σ σ' : Wiring} {w w' w₀ : World} {names : List Text}
variable {events : List Event}

/-- Doing a chore makes its file, and changes nothing else that later chores ask for. -/
theorem Effect.filed (effect : c.Effect value σ w (.ok ()) events σ' w') : w.Filed c.filed w' := by
  cases effect with
  | buffer place s held | endpoint place s | graph place s g =>
    cases s <;> exact .of_same rfl rfl rfl rfl
  | edge place => exact .of_same rfl rfl rfl rfl
  | file place s label name append line fine =>
    have made := w.filed_readyFile name (Wiring.fileMode s append)
    have later : (w.readyFile name (Wiring.fileMode s append)).Filed [] (((w.readyFile name
        (Wiring.fileMode s append)).addOpening name (Wiring.fileMode s append)).written line) := .of_same rfl rfl rfl rfl
    exact made.trans later
  | given place s held d given =>
    have none : (Chore.redirect place s (.stream held)).filed = [] := by
      rw [Chore.filed, Chore.making?, Target.making?, given]
      rfl
    rw [none]
    exact .of_same rfl rfl rfl rfl
  | started leaf above command p line isLeaf prepared => exact .of_same rfl rfl rfl rfl
  | notStarted leaf above command e line isLeaf refused => exact .of_same rfl rfl rfl rfl

/-- A command is tried if there is one that can be written down, whatever there is in the system. -/
private theorem start_outcome (value : Claim → Descriptor) (leaf : Graph) (above : Lineage) (σ : Wiring) (w : World) :
    ((start leaf above).Doable w₀ names ∧ (((start leaf above).perform value).exec σ w).1 = .ok ()) ∨
    (¬ (start leaf above).Doable w₀ names ∧
      ∃ e, (((start leaf above).perform value).exec σ w).1 = .error e ∧ ∀ failures, e ≠ .spawn failures) := by
  cases isLeaf : leaf.commandOf with
  | error e =>
    refine .inr ⟨?_, _, congrArg (·.1) (perform_start_of_error value above σ w isLeaf), e.failure_ne_spawn _⟩
    rintro ⟨command, isCommand, -⟩
    cases isLeaf.symm.trans isCommand
  | ok command =>
    rw [perform_start isLeaf]
    cases null : command.args.any Sim.hasNull with
    | true =>
      refine .inr ⟨?_, .misuse .embeddedNull, by rw [exec_startLeaf_of_null null], fun _ same => by cases same⟩
      rintro ⟨command', isCommand, clean⟩
      cases isLeaf.symm.trans isCommand
      cases null.symm.trans clean
    | false =>
      refine .inl ⟨⟨command, isLeaf, null⟩, ?_⟩
      cases prepared : Sim.prepare w (σ.requestOf command (contextOf value (leaf.nearest above))) with
      | ok p =>
        obtain ⟨line, ran⟩ := exec_startLeaf null prepared
        rw [ran]
      | error e =>
        obtain ⟨line, ran⟩ := exec_startLeaf_of_error null prepared
        rw [ran]

/-- A redirect is resolved if what it makes is possible. -/
private theorem redirect_outcome (filed : w₀.Filed names w) (value : Claim → Descriptor) (place : Place) (s : Stream)
    (target : Target) (σ : Wiring) :
    ((redirect place s target).Doable w₀ names ∧ (((redirect place s target).perform value).exec σ w).1 = .ok ()) ∨
    (¬ (redirect place s target).Doable w₀ names ∧
      ∃ e, (((redirect place s target).perform value).exec σ w).1 = .error e ∧ ∀ failures, e ≠ .spawn failures) := by
  have impossible (none : target.making? place s = none) : ¬ (redirect place s target).Doable w₀ names := by
    rintro ⟨m, made, -⟩
    cases none.symm.trans made
  have resolved {a : Resolved} {σ' : Wiring} {w' : World} (ran : (resolve target s {}).exec σ w = (.ok a, σ', w')) :
      (((redirect place s target).perform value).exec σ w).1 = .ok () := by rw [perform_resolved ran]
  have unresolved {e : Failure} {σ' : Wiring} {w' : World} (ran : (resolve target s {}).exec σ w = (.error e, σ', w')) :
      (((redirect place s target).perform value).exec σ w).1 = .error e := by rw [perform_unresolved ran]
  cases target with
  | file path append =>
    obtain ⟨label, v⟩ := path
    cases v with
    | str name =>
      have opens : Sim.openError? w name (fileMode s append) = none ↔ _ := filed.openError?_eq_none
      cases found : Sim.openError? w name (fileMode s append) with
      | none =>
        obtain ⟨line, ran⟩ := exec_resolveFile σ label found
        exact .inl ⟨⟨_, rfl, opens.mp found⟩, resolved ran⟩
      | some e =>
        refine .inr ⟨?_, .system e, unresolved (exec_resolveFile_of_error σ found), fun _ same => by cases same⟩
        rintro ⟨m, made, possible⟩
        cases made
        cases found.symm.trans (opens.mpr possible)
    | _ => exact .inr ⟨impossible rfl, .wrongType, rfl, fun _ same => by cases same⟩
  | buffer held => exact .inl ⟨⟨_, rfl, by cases s <;> trivial⟩, resolved (exec_resolveBuffer ..)⟩
  | graph g => exact .inl ⟨⟨_, rfl, by cases s <;> trivial⟩, resolved (exec_resolveGraph ..)⟩
  | endpoint => exact .inl ⟨⟨_, rfl, by cases s <;> trivial⟩, resolved (exec_resolveEndpoint ..)⟩
  | stream held =>
    cases found : held.it.descriptor? with
    | some d =>
      refine .inl ⟨⟨.given d (.near place s), by rw [Target.making?, found]; rfl, trivial⟩, ?_⟩
      exact resolved (exec_resolveStream σ w found)
    | none =>
      obtain ⟨e, noSpawn, ran⟩ := exec_resolveStream_of_none found
      exact .inr ⟨impossible (by rw [Target.making?, found]; rfl), e, unresolved (ran σ w), noSpawn⟩
  | unknown name => exact .inr ⟨impossible rfl, _, rfl, BuildError.failure_ne_spawn _ _⟩
  | stray held => exact .inr ⟨impossible rfl, _, rfl, BuildError.failure_ne_spawn _ _⟩

/-- A chore that can be done is done, and one that cannot fails, though not for failed commands. -/
theorem perform_outcome (filed : w₀.Filed names w) (value : Claim → Descriptor) (c : Chore) (σ : Wiring) :
    (c.Doable w₀ names ∧ ((c.perform value).exec σ w).1 = .ok ()) ∨
    (¬ c.Doable w₀ names ∧ ∃ e, ((c.perform value).exec σ w).1 = .error e ∧ ∀ failures, e ≠ .spawn failures) := by
  cases c with
  | edge place => exact .inl ⟨trivial, by rw [perform_edge]⟩
  | refuse e => exact .inr ⟨id, _, rfl, e.failure_ne_spawn _⟩
  | start leaf above => exact start_outcome value leaf above σ w
  | redirect place s target => exact redirect_outcome filed value place s target σ

/-! ## All chores -/

/-- Some chores can be done one after the other. -/
def AllDoable (w : World) : List Text → List Chore → Prop
  | _, [] => True
  | names, c :: rest => c.Doable w names ∧ AllDoable w (names ++ c.filed) rest

/-- A chore reads a file. -/
def Reads (c : Chore) (name : Text) : Prop := ∃ claim, c.making? = some (.file name .read claim)

variable {chores : List Chore} {names' : List Text}

/-- **Chores are done exactly if each can be done after those before it.** -/
theorem performAll_ok_iff (filed : w₀.Filed names w) (value : Claim → Descriptor) (chores : List Chore) (σ : Wiring) :
    ((performAll value chores).exec σ w).1 = .ok () ↔ AllDoable w₀ names chores := by
  induction chores generalizing σ w names with
  | nil => exact ⟨fun _ => trivial, fun _ => rfl⟩
  | cons c rest ih =>
    obtain ⟨events, effect⟩ := perform_effect value c σ w
    rw [performAll, Owning.exec_bind, AllDoable]
    rcases perform_outcome filed value c σ with ⟨doable, done⟩ | ⟨stuck, e, failed, -⟩ <;>
      generalize (c.perform value).exec σ w = result at * <;> obtain ⟨outcome, σ', w'⟩ := result
    · obtain rfl : outcome = .ok () := done
      have later := ih (filed.trans effect.filed) σ'
      exact ⟨fun ran => ⟨doable, later.mp ran⟩, fun both => later.mpr both.2⟩
    · obtain rfl : outcome = .error e := failed
      exact ⟨fun ran => (by cases ran), fun both => absurd both.1 stuck⟩

/-- Chores that are not all done have no failed commands to tell of. -/
theorem performAll_ne_spawn (value : Claim → Descriptor) (chores : List Chore) (σ : Wiring) (w : World)
    (failures : List SpawnFailure) : ((performAll value chores).exec σ w).1 ≠ .error (.spawn failures) := by
  intro failed
  generalize ran : (performAll value chores).exec σ w = result at failed
  obtain ⟨outcome, σ', w'⟩ := result
  obtain rfl : outcome = .error (.spawn failures) := failed
  obtain ⟨done, c, rest, σ₁, w₁, -, -, stopped⟩ := performAll_error ran
  rcases perform_outcome (.of_same rfl rfl rfl rfl) value c σ₁ with ⟨-, done⟩ | ⟨-, e, failed, noSpawn⟩
  · cases (congrArg Prod.fst stopped).symm.trans done
  · exact noSpawn failures (Except.error.inj (failed.symm.trans (congrArg Prod.fst stopped)))

/-- What can be done where some files were made can be done without them, as far as it does not read them. -/
theorem Doable.change (doable : c.Doable w names)
    (there : ∀ name ∈ names, c.Reads name → (w.file? name).isSome ∨ name ∈ names') : c.Doable w names' := by
  cases c with
  | redirect place s target =>
    obtain ⟨m, made, possible⟩ := doable
    refine ⟨m, made, ?_⟩
    cases m with
    | file name mode claim =>
      refine ⟨possible.1, fun read => (possible.2 read).elim .inl fun isNew => there name isNew ⟨claim, ?_⟩⟩
      rw [← read]
      exact made
    | _ => trivial
  | edge | start | refuse => exact doable

theorem AllDoable.change (all : AllDoable w names chores)
    (there : ∀ c ∈ chores, ∀ name ∈ names, c.Reads name → (w.file? name).isSome ∨ name ∈ names') :
    AllDoable w names' chores := by
  induction chores generalizing names names' with
  | nil => trivial
  | cons c rest ih =>
    refine ⟨all.1.change (there c List.mem_cons_self), ih all.2 fun d member name isName reads => ?_⟩
    rw [List.mem_append] at isName ⊢
    rcases isName with old | new
    · exact (there d (List.mem_cons_of_mem _ member) name old reads).imp_right .inl
    · exact .inr (.inr new)

theorem AllDoable.mono (all : AllDoable w names chores) (subset : names ⊆ names') : AllDoable w names' chores :=
  all.change fun _ _ _ isName _ => .inr (subset isName)

theorem allDoable_append {a b : List Chore} :
    AllDoable w names (a ++ b) ↔ AllDoable w names a ∧ AllDoable w (names ++ a.flatMap filed) b := by
  induction a generalizing names with
  | nil => simp [AllDoable]
  | cons c rest ih => simp [AllDoable, ih, and_assoc, List.append_assoc]

/-- Pipes can always be made. -/
theorem allDoable_edges (w : World) (names : List Text) (edges : List Place) : AllDoable w names (edges.map edge) := by
  induction edges generalizing names with
  | nil => trivial
  | cons place rest ih => exact ⟨trivial, ih _⟩

theorem filed_edges (edges : List Place) : (edges.map edge).flatMap filed = [] :=
  List.flatMap_eq_nil_iff.mpr fun c member => by
    obtain ⟨place, -, rfl⟩ := List.mem_map.mp member
    rfl

end Chore

end Pipework
