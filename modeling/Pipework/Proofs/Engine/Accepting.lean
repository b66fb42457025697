import Pipework.Proofs.Pump.Kinds
import Pipework.Proofs.Wiring.Steps

/-!
# What is accepted as a redirect

A plain value is taken as a redirect of a stream only where the target that it stands for can serve that stream: the
engine finds out what it leads to, and a pump that it makes for it does not fail for the kind of its buffer
(`Target.accepted_redirects_serve`). A target that was accepted is accepted again. But a value that is a target
already is taken as it is, whatever it holds, unless a file is to be appended to for stdin: bytes that are refused as
the output of a command are accepted in a buffer target, and then the pump fails.
-/

namespace Pipework

namespace Target

/-- A target can serve a stream: a file has a name, and is not appended to where it is read; a buffer suits the pump
that is made for it; and there is a descriptor where one is given. -/
def Serves (s : Stream) : Target → Prop
  | .file path append => (∃ name, path.it = .str name) ∧ (s = .stdin → append = false)
  | .buffer held => held.it.toBuffer.Suits (Wiring.directionOf s)
  | .stream held => held.it.descriptor?.isSome
  | .graph _ | .endpoint => True
  | .unknown _ | .stray _ => False

/-- Whether a target is a file to append to. -/
def appends : Target → Bool
  | .file _ append => append
  | _ => false

variable {i : Item} {s : Stream} {append : Bool} {n n' : Nat} {t : Labelled Target} {t₀ : Target}

theorem Serves.appends_eq (serves : t₀.Serves s) (input : s = .stdin) : t₀.appends = false := by
  cases t₀ with
  | file path append => exact serves.2 input
  | _ => rfl

/-! ## Accepting -/

theorem eq_of_fresh (made : (fresh t₀).run n = .ok (some t, n')) : t.it = t₀ := by
  cases made
  rfl

/-- What serves as a buffer suits the pump of its stream. -/
theorem suits_of_servesAsBuffer {v : Value} (serves : v.servesAsBuffer s) :
    v.toBuffer.Suits (Wiring.directionOf s) := by
  cases v with
  | object ref =>
    obtain ⟨id, kind⟩ := ref
    cases s with
    | stdin =>
      cases kind <;> first
        | cases serves; done
        | simp [Value.toBuffer, Wiring.directionOf, Buffer.Suits, ObjectKind.IsReadable]
    | stdout | stderr =>
      refine ⟨_, rfl, ?_⟩
      cases kind <;> first | cases serves; done | simp [ObjectKind.TakesBytes, ObjectKind.TakesText]
  | _ => cases serves

/-- A plain value is accepted only for what serves the stream. -/
theorem serves_of_accepted (plain : ∀ t₀, i.it ≠ .target t₀)
    (accepted : (ofItem? i s append).run n = .ok (some t, n')) : t.it.Serves s := by
  obtain ⟨label, v⟩ := i
  unfold ofItem? at accepted
  dsimp only at accepted plain
  split at accepted
  · cases accepted
  · next t₀ => exact absurd rfl (plain t₀)
  · cases accepted
    trivial
  · cases accepted
    trivial
  · cases accepted
  · rw [eq_of_fresh accepted]
    rfl
  · rw [eq_of_fresh accepted]
    rfl
  -- immutable bytes, seen directly or through a view, are for stdin only
  · split at accepted
    · next input =>
      rw [eq_of_fresh accepted, input]
      trivial
    · cases accepted
  · split at accepted
    · next input =>
      cases accepted
      rw [input]
      trivial
    · cases accepted
  · split at accepted
    · cases named : Value.argumentLabel? ⟨label, v⟩
      all_goals
        rw [named] at accepted
        cases accepted
        exact ⟨⟨_, rfl⟩, fun input => by simp [input]⟩
    · split at accepted
      · next serves =>
        rw [eq_of_fresh accepted]
        exact suits_of_servesAsBuffer serves
      · cases accepted

/-- A target is accepted as it is, unless it is a file to append to for stdin. -/
theorem run_ofItem?_of_target (isTarget : i.it = .target t₀) :
    (ofItem? i s append).run n
      = if s = .stdin ∧ t₀.appends then .error .appendToInput else .ok (some ⟨i.label, t₀⟩, n) := by
  obtain ⟨label, v⟩ := i
  cases isTarget
  cases t₀ with
  | file path append => cases append <;> cases s <;> rfl
  | _ => cases s <;> rfl

/-- What was accepted is no file to append to for stdin. -/
theorem appends_of_accepted (accepted : (ofItem? i s append).run n = .ok (some t, n')) :
    ¬ (s = .stdin ∧ t.it.appends) := by
  rintro ⟨input, appended⟩
  by_cases plain : ∀ t₀, i.it ≠ .target t₀
  · rw [(serves_of_accepted plain accepted).appends_eq input] at appended
    cases appended
  · obtain ⟨t₀, isTarget⟩ := not_forall_not.mp plain
    rw [run_ofItem?_of_target isTarget] at accepted
    split at accepted
    · cases accepted
    · next no =>
      cases accepted
      exact no ⟨input, appended⟩

/-! ## Serving -/

/-- The engine finds out what a target that serves leads to, unless the system refuses to open a file. -/
theorem Serves.error_of_resolve (serves : t₀.Serves s) {outer : Context} {σ : Wiring} {w : World} {e : Failure}
    (failed : ((Wiring.resolve t₀ s outer).exec σ w).1 = .error e) : ∃ reason, e = .system reason := by
  cases t₀ with
  | file path append =>
    obtain ⟨label, v⟩ := path
    obtain ⟨⟨name, rfl⟩, -⟩ := serves
    cases opened : Sim.openError? w name (Wiring.fileMode s append) with
    | none =>
      obtain ⟨line, run⟩ := Wiring.exec_resolveFile σ label opened
      simp only [Wiring.resolve, run] at failed
      cases failed
    | some reason =>
      simp only [Wiring.resolve, Wiring.exec_resolveFile_of_error σ opened] at failed
      cases failed
      exact ⟨reason, rfl⟩
  | buffer held =>
    simp only [Wiring.resolve, Wiring.exec_resolveBuffer] at failed
    cases failed
  | graph g =>
    simp only [Wiring.resolve, Wiring.exec_resolveGraph] at failed
    cases failed
  | stream held =>
    obtain ⟨d, given⟩ := Option.isSome_iff_exists.mp serves
    simp only [Wiring.resolve, Wiring.exec_resolveStream σ w given] at failed
    cases failed
  | endpoint =>
    simp only [Wiring.resolve, Wiring.exec_resolveEndpoint] at failed
    cases failed
  | unknown name => exact serves.elim
  | stray held => exact serves.elim

/-- What is an object for a pump is an object. -/
theorem object_of_toBuffer {v : Value} {ref : ObjectRef} (same : v.toBuffer = .object ref) : v = .object ref := by
  cases v <;> cases same
  rfl

/-- The pump of a buffer that serves keeps no failure that tells the buffer's kind, unless the buffer is read and
does not hand out what it could be read for. -/
theorem Serves.pump {held : Item} (serves : (buffer held).Serves s) (outer : Context) (σ : Wiring) (w : World) :
    ∃ p : Pump, ((Wiring.resolve (.buffer held) s outer).exec σ w).2.1.pumps = σ.pumps ++ [p] ∧
      p.direction = Wiring.directionOf s ∧ p.buffer = held.it.toBuffer ∧
      ∀ w₁ e, (∀ ref, held.it = .object ref → w₁.memory.Knows ref) → (Pump.run.exec p w₁).2.1.error = some e →
        e.tellsKind → s = .stdin ∧ ∃ ref, held.it = .object ref ∧ Memory.Mismatch ref.kind e := by
  refine ⟨σ.nextPump s (w.farEnd s) held.it.toBuffer, ?_, rfl, rfl, fun w₁ e knows failed tells => ?_⟩
  · rw [Wiring.resolve, Wiring.exec_resolveBuffer]
  · obtain ⟨feeds, ref, same, mismatch⟩ := Pump.unkind_of_run (p := σ.nextPump s (w.farEnd s) held.it.toBuffer) serves
      rfl rfl (fun ref same => knows ref (object_of_toBuffer same)) failed tells
    refine ⟨?_, ref, object_of_toBuffer same, mismatch⟩
    cases s with
    | stdin => rfl
    | stdout | stderr => cases feeds

/-- What is accepted of a plain value serves the stream; a target is accepted as it is unless it is a file to append
to for stdin; what was accepted is accepted again. And of what serves a stream, the engine finds out where it leads,
unless the system refuses a file; the pump that it makes for a buffer keeps no failure that tells the buffer's kind,
unless the buffer is read and hands out no content, or is a text stream that is only written to. -/
theorem accepted_redirects_serve (s : Stream) :
    (∀ i append n t n', (∀ t₀, i.it ≠ .target t₀) → (ofItem? i s append).run n = .ok (some t, n') → t.it.Serves s) ∧
    (∀ i append n t₀, i.it = .target t₀ → (ofItem? i s append).run n
      = if s = .stdin ∧ t₀.appends then .error .appendToInput else .ok (some ⟨i.label, t₀⟩, n)) ∧
    (∀ i append n t n', (ofItem? i s append).run n = .ok (some t, n') → ∀ again m,
      (ofItem? ⟨t.label, .target t.it⟩ s again).run m = .ok (some t, m)) ∧
    (∀ t : Target, t.Serves s → ∀ outer σ w e, ((Wiring.resolve t s outer).exec σ w).1 = .error e →
      ∃ reason, e = .system reason) ∧
    ∀ held, (buffer held).Serves s → ∀ outer σ w,
      ∃ p : Pump, ((Wiring.resolve (.buffer held) s outer).exec σ w).2.1.pumps = σ.pumps ++ [p] ∧
        p.direction = Wiring.directionOf s ∧ p.buffer = held.it.toBuffer ∧
        ∀ w₁ e, (∀ ref, held.it = .object ref → w₁.memory.Knows ref) → (Pump.run.exec p w₁).2.1.error = some e →
          e.tellsKind → s = .stdin ∧ ∃ ref, held.it = .object ref ∧ Memory.Mismatch ref.kind e := by
  refine ⟨fun i append n t n' plain accepted => serves_of_accepted plain accepted,
    fun i append n t₀ isTarget => run_ofItem?_of_target isTarget, fun i append n t n' accepted again m => ?_,
    fun t serves outer σ w e failed => serves.error_of_resolve failed, fun held serves outer σ w => serves.pump outer σ w⟩
  rw [run_ofItem?_of_target rfl, if_neg (appends_of_accepted accepted)]

/-- A system in which a command has left a byte in the pipe of its output, and with bytes that grow in place. -/
private def repliedWorld : World where
  descriptors := [(10, .readEnd 0)]
  nextDescriptor := 11
  pipes := [[120]]
  memory := { cells := [.byteArray []] }

/-- Bytes that grow in place are accepted for stdout, and the pump that drains into them keeps no failure. -/
theorem accepted_redirects_serve_of_byteArray :
    (ofItem? ⟨.own 0, .object ⟨0, .byteArray⟩⟩ .stdout false).run 1
      = .ok (some ⟨.own 1, .buffer ⟨.own 0, .object ⟨0, .byteArray⟩⟩⟩, 2) ∧
    (ofItem? ⟨.own 1, .target (.buffer ⟨.own 0, .object ⟨0, .byteArray⟩⟩)⟩ .stdout true).run 2
      = .ok (some ⟨.own 1, .buffer ⟨.own 0, .object ⟨0, .byteArray⟩⟩⟩, 2) ∧
    ∃ p : Pump, p.buffer = .object ⟨0, .byteArray⟩ ∧ p.direction = .drain ∧
      ∀ e, (Pump.run.exec p repliedWorld).2.1.error = some e → ¬ e.tellsKind := by
  obtain ⟨plain, -, again, -, pump⟩ := accepted_redirects_serve .stdout
  have accepted : (ofItem? ⟨.own 0, .object ⟨0, .byteArray⟩⟩ .stdout false).run 1
      = .ok (some ⟨.own 1, .buffer ⟨.own 0, .object ⟨0, .byteArray⟩⟩⟩, 2) := rfl
  obtain ⟨p, -, drains, buffer, fine⟩ := pump _ (plain _ _ _ _ _ (by rintro _ ⟨⟩) accepted) {} { settings := {} } {}
  refine ⟨accepted, again _ _ _ _ _ accepted true 2, p, buffer, drains, fun e failed tells => ?_⟩
  have knows : ∀ ref, Value.object ⟨0, .byteArray⟩ = .object ref → repliedWorld.memory.Knows ref := by
    rintro ref ⟨⟩
    exact ⟨.byteArray [], rfl, rfl⟩
  cases (fine repliedWorld e knows failed tells).1

/-- Bytes are refused for stdout, and accepted in a buffer target; the pump that drains into them fails at the first
byte that it reads, for bytes cannot be written to. -/
theorem wrapped_bytes_are_accepted :
    (ofItem? ⟨.own 0, .bytes [120]⟩ .stdout false).run 1 = .error (.immutableOutput .stdout "bytes") ∧
    (ofItem? ⟨.own 1, .target (.buffer ⟨.own 0, .bytes [120]⟩)⟩ .stdout false).run 2
      = .ok (some ⟨.own 1, .buffer ⟨.own 0, .bytes [120]⟩⟩, 2) ∧
    (Pump.run.exec (Wiring.nextPump { settings := {} } .stdout 10 (Value.bytes [120]).toBuffer) repliedWorld).2.1.error
      = some (.lacking "bytes" "write") :=
  ⟨rfl, rfl, rfl⟩

end Target

end Pipework
