import Pipework.Proofs.Pump.Sources

/-!
# What a source hands over

The source of a pump may fail at any read, and a text that it hands out may have no bytes in the coding. What has
gone to the writer until then is the beginning of what the source has to hand out (`Pump.sourceBytes`), whatever the
size of the chunks, and has been counted; a source that comes to its end has handed over all of it
(`Pump.feedAll_hands`).
-/

namespace Pipework

variable {m m' : Memory} {ref : ObjectRef} {b : Bytes} {e : Failure}

/-! ## What there is to hand out -/

/-- The bytes of a chunk, where a text is spelled in some way, if it can be. -/
def Chunk.spelled? (spell : Text → Option Bytes) : Chunk → Option Bytes
  | .text t => spell t
  | .bytes b => some b

/-- The bytes of a text up to the first rune that has none. -/
def Text.spelledUpTo (spell : Text → Option Bytes) : Text → Bytes
  | [] => []
  | rune :: rest =>
    match spell [rune] with
    | some b => b ++ spelledUpTo spell rest
    | none => []

namespace Memory

variable {spell : Text → Option Bytes} {chunk : Chunk} {size : Int}

/-- The bytes that a source hands out, up to its end, its first failure, or the first text that has none. -/
def handedOut (m : Memory) (spell : Text → Option Bytes) (failure : SystemError) : List Value → Bytes
  | [] => []
  | v :: rest =>
    match Chunk.ofValue m failure v with
    | .error _ => []
    | .ok chunk =>
      if chunk.isEmpty then []
      else match chunk.spelled? spell with
        | some b => b ++ m.handedOut spell failure rest
        | none => []

/-- The bytes that reading an object gives, one read after another. -/
def toRead (m : Memory) (spell : Text → Option Bytes) (ref : ObjectRef) : Bytes :=
  match m.get? ref with
  | some (.byteStream content position) => content.drop position
  | some (.textStream content position) => Text.spelledUpTo spell (content.drop position)
  | some (.source values failure) => m.handedOut spell failure values
  | _ => []

/-! ## One read -/

/-- A read that fails as if nobody could read any more fails by the error that the source was given. -/
theorem source_of_readChunk_broken (read : m.readChunk ref size = (.error e, m')) (broken : e.isBrokenPipe) :
    ∃ values failure, m.get? ref = some (.source values failure) ∧ e = .system failure := by
  unfold readChunk at read
  split at read
  · cases read
  · cases read
  · cases read
  · next v rest failure found =>
    obtain ⟨outcome, -⟩ := Prod.mk.inj read
    refine ⟨v :: rest, failure, found, ?_⟩
    unfold Chunk.ofValue at outcome
    split at outcome
    · exact (Except.error.inj outcome).symm
    · cases outcome
    · cases outcome
    · split at outcome
      · cases outcome
      · cases outcome
        cases broken
  all_goals
    cases read
    cases broken

/-- A source that has been read was a source before, with the same error. -/
theorem source_of_readChunk {outcome : Except Failure Chunk} {values : List Value} {failure : SystemError}
    (read : m.readChunk ref size = (outcome, m')) (later : m'.get? ref = some (.source values failure)) :
    ∃ before, m.get? ref = some (.source before failure) := by
  have put {x y : Cell} (found : m.get? ref = some x) (left : m' = m.put ref y)
      (other : ∀ before, y ≠ .source before failure) : False := by
    rw [left, get?_put (by rw [found]; rfl)] at later
    exact other _ (Option.some.inj later)
  unfold readChunk at read
  split at read
  · next found => exact (put found (Prod.mk.inj read).2.symm nofun).elim
  · next found => exact (put found (Prod.mk.inj read).2.symm nofun).elim
  · next found =>
    cases read
    exact ⟨_, later⟩
  · next v rest _ found =>
    rw [← (Prod.mk.inj read).2, get?_put (by rw [found]; rfl)] at later
    cases later
    exact ⟨_, found⟩
  all_goals
    cases read
    exact ⟨_, later⟩

/-- What a value stands for does not depend on how much a source has handed out. -/
private theorem ofValue_put {before after : List Value} {failure : SystemError}
    (here : m.get? ref = some (.source before failure)) (v : Value) :
    Chunk.ofValue (m.put ref (.source after failure)) failure v = Chunk.ofValue m failure v := by
  have same (other : ObjectRef) : (m.put ref (.source after failure)).bytesOf other = m.bytesOf other := by
    by_cases mine : other.id = ref.id
    · have old : m.get? other = some (.source before failure) := by rw [get?, mine]; exact here
      have new : (m.put ref (.source after failure)).get? other = some (.source after failure) := by
        rw [get?, mine]
        exact get?_put (by rw [here]; rfl)
      rw [bytesOf, bytesOf, old, new]
    · have untouched : (m.put ref (.source after failure)).get? other = m.get? other :=
        List.getElem?_set_ne (Ne.symm mine)
      rw [bytesOf, bytesOf, untouched]
  have content : v.content? (m.put ref (.source after failure)) = v.content? m := by
    cases v <;> simp [Value.content?, same]
  unfold Chunk.ofValue
  rw [content]

private theorem handedOut_put {before after : List Value} {failure : SystemError}
    (here : m.get? ref = some (.source before failure)) (values : List Value) :
    (m.put ref (.source after failure)).handedOut spell failure values = m.handedOut spell failure values := by
  induction values with
  | nil => rfl
  | cons v rest ih => rw [handedOut, handedOut, ofValue_put here, ih]

private theorem upTo_eq_nil {α : Type} {l : List α} (reads : size ≠ 0) (nothing : upTo size l = []) : l = [] := by
  unfold upTo at nothing
  split at nothing
  · exact nothing
  · exact (List.take_eq_nil_iff.mp nothing).resolve_left (by omega)

/-- What is read at once comes first. -/
private theorem upTo_append {α : Type} (size : Int) (whole : List α) (position : Nat) :
    whole.drop position
      = upTo size (whole.drop position) ++ whole.drop (position + (upTo size (whole.drop position)).length) := by
  unfold upTo
  split
  · rw [List.drop_eq_nil_of_le (i := position + _) (by rw [List.length_drop]; omega), List.append_nil]
  · rw [← List.drop_drop, List.length_take]
    conv => lhs; rw [← List.take_append_drop size.toNat (whole.drop position)]
    congr 1
    by_cases within : size.toNat ≤ (whole.drop position).length
    · rw [Nat.min_eq_left within]
    · rw [List.drop_eq_nil_of_le (by omega), List.drop_eq_nil_of_le (by omega)]

/-- A read that gives nothing has come to the end. -/
theorem toRead_of_empty (read : m.readChunk ref size = (.ok chunk, m')) (nothing : chunk.isEmpty)
    (reads : size ≠ 0) : m.toRead spell ref = [] := by
  unfold readChunk at read
  unfold toRead
  split at read
  · next found =>
    cases read
    rw [found]
    exact upTo_eq_nil reads (List.isEmpty_iff.mp nothing)
  · next found =>
    cases read
    rw [found]
    dsimp only
    rw [upTo_eq_nil reads (List.isEmpty_iff.mp nothing)]
    rfl
  · next found =>
    rw [found]
    rfl
  · next found =>
    rw [found]
    dsimp only
    rw [handedOut, (Prod.mk.inj read).1]
    dsimp only
    rw [if_pos nothing]
  all_goals cases read

/-- A read that gives something takes it off from the front. -/
theorem toRead_of_some (splits : ∀ {t u : Text} {b : Bytes}, spell t = some b →
      Text.spelledUpTo spell (t ++ u) = b ++ Text.spelledUpTo spell u)
    (read : m.readChunk ref size = (.ok chunk, m')) (something : chunk.isEmpty = false)
    (spelled : chunk.spelled? spell = some b) :
    m.toRead spell ref = b ++ m'.toRead spell ref ∧ m'.readsLeft ref < m.readsLeft ref := by
  have shorter {α : Type} {whole : List α} {position : Nat} (some : upTo size (whole.drop position) ≠ []) :
      whole.length - (position + (upTo size (whole.drop position)).length) < whole.length - position := by
    have positive := List.length_pos_iff.mpr some
    have more := congrArg List.length (upTo_append size whole position)
    rw [List.length_append, List.length_drop, List.length_drop] at more
    omega
  unfold readChunk at read
  unfold toRead readsLeft
  split at read
  · next content position found =>
    cases read
    cases spelled
    rw [found, get?_put (by rw [found]; rfl)]
    exact ⟨upTo_append _ content position, shorter (List.isEmpty_eq_false_iff.mp something)⟩
  · next content position found =>
    cases read
    rw [found, get?_put (by rw [found]; rfl)]
    refine ⟨?_, shorter (List.isEmpty_eq_false_iff.mp something)⟩
    dsimp only
    conv => lhs; rw [upTo_append size content position]
    exact splits spelled
  · cases read
    cases something
  · next v rest failure found =>
    obtain ⟨value, rfl⟩ := Prod.mk.inj read
    rw [found, get?_put (by rw [found]; rfl)]
    refine ⟨?_, Nat.lt_succ_self _⟩
    dsimp only
    rw [handedOut, value, handedOut_put found]
    dsimp only
    rw [if_neg (by simp [something]), spelled]
  all_goals cases read

end Memory

namespace Pump

variable {p : Pump} {r : Writer} {w : World} {t u : Text} {handed : Bytes} {ending : Except Failure Unit}

/-- The bytes of a text for a pump, if it has any. -/
def spell? (p : Pump) (t : Text) : Option Bytes := (p.encoded t).toOption

/-- The bytes that the buffer of a pump has to hand out, as far as they can be had. -/
def sourceBytes (p : Pump) (m : Memory) : Bytes :=
  match p.buffer with
  | .text t => (p.spell? t).getD []
  | .bytes b | .view b => b
  | .object ref => if ref.kind = .byteArray then m.bytesOf ref else m.toRead p.spell? ref
  | .unusable _ => []

/-- A fixed content can be cut into chunks of the size of a pump. -/
def Cuts (p : Pump) : Prop := ∃ size, p.settings.chunkSize = some size ∧ 0 < size

/-- The size of its chunks lets a pump come to the end of its buffer: a fixed content has to be cut, and any size
but zero will do for an object that is read. -/
def Covers (p : Pump) : Prop :=
  match p.buffer with
  | .object ref => if ref.kind = .byteArray then p.Cuts else p.readLimit ≠ 0
  | _ => p.Cuts

/-- The source of a pump is an object of the caller's, and this is the error that it raises. -/
def SourceRaises (p : Pump) (m : Memory) (e : Failure) : Prop :=
  ∃ ref values failure, p.buffer = .object ref ∧ m.get? ref = some (.source values failure) ∧ e = .system failure

/-- What comes of feeding from the buffer of a pump: what goes to the writer, and how it ends. -/
structure Offers (p : Pump) (m : Memory) (handed : Bytes) (ending : Except Failure Unit) : Prop where
  begins : handed <+: p.sourceBytes m
  whole : ending = .ok () → p.Covers → handed = p.sourceBytes m
  /-- There is no broken pipe but one that the source itself raises. -/
  own : ∀ e, ending = .error e → e.isBrokenPipe → p.SourceRaises m e

/-! ## Texts -/

theorem encoded_ok_iff : p.encoded t = .ok b ↔
    ∃ coding, p.codingFor "encode() argument 'encoding'" = .ok coding ∧ coding.encode t = some b := by
  unfold encoded
  cases named : p.codingFor "encode() argument 'encoding'" with
  | error e => simp [bind, Except.bind]
  | ok coding => cases spelled : coding.encode t <;> simp [bind, Except.bind, spelled, pure, Except.pure]

theorem spell?_eq_some_iff : p.spell? t = some b ↔ p.encoded t = .ok b := by
  unfold spell?
  cases p.encoded t <;> simp [Except.toOption]

/-- Not to find a coding is no broken pipe. -/
theorem unbroken_of_codingFor {operation : Text} (failed : p.codingFor operation = .error e) :
    e.isBrokenPipe = false := by
  unfold codingFor at failed
  split at failed
  · unfold Coding.named at failed
    split at failed
    · cases failed
      rfl
    · split at failed
      · cases failed
        rfl
      · split at failed <;> cases failed
        rfl
  · cases failed
    rfl

/-- The failures of an encoding are no broken pipes. -/
theorem unbroken_of_encoded (failed : p.encoded t = .error e) : e.isBrokenPipe = false := by
  unfold encoded at failed
  cases named : p.codingFor "encode() argument 'encoding'" with
  | error e' =>
    rw [named] at failed
    cases failed
    exact unbroken_of_codingFor named
  | ok coding =>
    simp only [named, bind, Except.bind] at failed
    split at failed <;> cases failed
    rfl

/-- The bytes of a text come first in what there is of a longer one. -/
theorem spelledUpTo_append (spelled : p.spell? t = some b) (u : Text) :
    Text.spelledUpTo p.spell? (t ++ u) = b ++ Text.spelledUpTo p.spell? u := by
  obtain ⟨coding, named, encoded⟩ := encoded_ok_iff.mp (spell?_eq_some_iff.mp spelled)
  clear spelled
  induction t generalizing b with
  | nil =>
    cases encoded
    rfl
  | cons rune rest ih =>
    obtain ⟨b₁, b₂, first, second, rfl⟩ := Coding.encode_parts (t := [rune]) encoded
    have mine : p.spell? [rune] = some b₁ := spell?_eq_some_iff.mpr (encoded_ok_iff.mpr ⟨coding, named, first⟩)
    rw [List.cons_append, Text.spelledUpTo, mine]
    dsimp only
    rw [ih second, List.append_assoc]

/-! ## Feeding -/

/-- A step of feeding hands some bytes to the writer and counts them, and changes nothing else but the memory. -/
def Hands (step : Feeding Unit) (p : Pump) (r : Writer) (w : World) (P : Bytes → Except Failure Unit → Prop) : Prop :=
  ∃ handed ending memory, step.exec (p, r) w
    = (ending, ({ p with moved := p.moved + handed.length }, { r with held := r.held ++ handed }), { w with memory }) ∧
    P handed ending

/-- A step that hands over nothing. -/
theorem Hands.nothing {step : Feeding Unit} {P : Bytes → Except Failure Unit → Prop} {memory : Memory}
    (ran : step.exec (p, r) w = (ending, (p, r), { w with memory })) (holds : P [] ending) : Hands step p r w P :=
  ⟨[], ending, memory, by rw [ran, List.append_nil]; rfl, holds⟩

/-- What comes of at most so many reads of an object, in bytes. -/
private structure Reads (p : Pump) (ref : ObjectRef) (reads : Nat) (m : Memory) (handed : Bytes)
    (ending : Except Failure Unit) : Prop where
  begins : handed <+: m.toRead p.spell? ref
  whole : ending = .ok () → m.readsLeft ref < reads → p.readLimit ≠ 0 → handed = m.toRead p.spell? ref
  own : ∀ e, ending = .error e → e.isBrokenPipe →
    ∃ values failure, m.get? ref = some (.source values failure) ∧ e = .system failure

/-- A read comes first, and then what comes of the others. -/
private theorem Reads.next {reads : Nat} {chunk : Chunk} (read : m.readChunk ref p.readLimit = (.ok chunk, m'))
    (something : chunk.isEmpty = false) (spelled : chunk.spelled? p.spell? = some b)
    (others : Reads p ref reads m' handed ending) : Reads p ref (reads + 1) m (b ++ handed) ending := by
  obtain ⟨front, fewer⟩ := Memory.toRead_of_some (fun spelled => spelledUpTo_append spelled _) read something spelled
  refine ⟨?_, fun ended enough sized => ?_, fun e failed broken => ?_⟩
  · rw [front]
    exact (List.prefix_append_right_inj b).mpr others.begins
  · rw [front, others.whole ended (Nat.lt_of_lt_of_le fewer (Nat.le_of_lt_succ enough)) sized]
  · obtain ⟨values, failure, later, same⟩ := others.own e failed broken
    obtain ⟨before, found⟩ := Memory.source_of_readChunk read later
    exact ⟨before, failure, found, same⟩

/-- What an object hands out goes to the writer, read by read, until it ends or fails. -/
private theorem feedObject_hands (isOpen : r.closed = false) (reads : Nat) :
    Hands (feedObject ref reads) p r w (Reads p ref reads w.memory) := by
  induction reads generalizing p r w with
  | zero => exact .nothing (by rw [feedObject, Owning.exec_pure]) ⟨List.nil_prefix, by simp, by simp⟩
  | succ reads ih =>
    generalize read : w.memory.readChunk ref p.readLimit = result
    obtain ⟨outcome, memory⟩ := result
    have first : (feedObject ref (reads + 1)).exec (p, r) w = (feedObject ref (reads + 1)).exec (p, r) w := rfl
    conv at first =>
      rhs
      rw [feedObject, Owning.exec_bind, Owning.exec_own]
      dsimp only
      rw [Owning.exec_bind, Owning.exec_lift, exec_onMemory, read]
    -- The source has failed, or has ended, or hands out a chunk; then comes the rest.
    have onward {chunk : Chunk} {b : Bytes} (isChunk : outcome = .ok chunk) (something : chunk.isEmpty = false)
        (spelled : chunk.spelled? p.spell? = some b)
        (ran : (feedObject ref (reads + 1)).exec (p, r) w
          = (do writeChunk b; feedObject ref reads : Feeding Unit).exec (p, r) { w with memory }) :
        Hands (feedObject ref (reads + 1)) p r w (Reads p ref (reads + 1) w.memory) := by
      subst isChunk
      obtain ⟨handed, ending, memory', fed, others⟩ := ih (p := { p with moved := p.moved + b.length })
        (r := { r with held := r.held ++ b }) (w := { w with memory }) isOpen
      refine ⟨b ++ handed, ending, memory', ?_, .next read something spelled ⟨others.begins, others.whole, others.own⟩⟩
      rw [ran, Owning.exec_bind, exec_writeChunk isOpen]
      dsimp only
      rw [fed, List.length_append, Nat.add_assoc, List.append_assoc]
    cases outcome with
    | error e =>
      refine .nothing first ⟨List.nil_prefix, by simp, fun _ same broken => ?_⟩
      cases same
      exact Memory.source_of_readChunk_broken read broken
    | ok chunk =>
      dsimp only at first
      have ended (nothing : chunk.isEmpty) : Reads p ref (reads + 1) w.memory [] (.ok ()) :=
        ⟨List.nil_prefix, fun _ _ sized => (Memory.toRead_of_empty read nothing sized).symm, by simp⟩
      cases chunk with
      | bytes b =>
        cases b with
        | nil => exact .nothing first (ended rfl)
        | cons x b => exact onward rfl rfl rfl first
      | text t =>
        cases t with
        | nil => exact .nothing first (ended rfl)
        | cons x t =>
          dsimp only at first
          rw [Owning.exec_bind, Owning.exec_lift, Sim.exec_ofExcept] at first
          cases spelled : p.encoded (x :: t) with
          | error e =>
            rw [spelled] at first
            refine .nothing first ⟨List.nil_prefix, by simp, fun _ same broken => ?_⟩
            cases same
            cases (unbroken_of_encoded spelled).symm.trans broken
          | ok b =>
            rw [spelled] at first
            exact onward rfl rfl (spell?_eq_some_iff.mpr spelled) first

/-- A fixed content is cut and written, or it cannot be cut, or a size below zero passes over it. -/
private theorem feedBytes_hands (isOpen : r.closed = false) (b : Bytes) (p : Pump) (w : World) :
    Hands (feedBytes b) p r w fun handed ending => handed <+: b ∧ (ending = .ok () → p.Cuts → handed = b) ∧
      ∀ e, ending = .error e → e.isBrokenPipe = false := by
  have fails {e : Failure} (unbroken : e.isBrokenPipe = false) :
      ([] : Bytes) <+: b ∧ ((.error e : Except Failure Unit) = .ok () → p.Cuts → [] = b) ∧
        ∀ e', (.error e : Except Failure Unit) = .error e' → e'.isBrokenPipe = false :=
    ⟨List.nil_prefix, by simp, fun _ same => (by cases same; exact unbroken)⟩
  cases sized : p.settings.chunkSize with
  | none =>
    have stops : (feedBytes b).exec (p, r) w =
        (.error (.mistyped "'NoneType' object cannot be interpreted as an integer"), (p, r), w) := by
      rw [feedBytes, Owning.exec_bind, Owning.exec_own]
      dsimp only
      rw [sized]
      rfl
    exact .nothing stops (fails rfl)
  | some size =>
    by_cases zero : size = 0
    · have stops : (feedBytes b).exec (p, r) w = (.error (.misuse .zeroStride), (p, r), w) := by
        rw [feedBytes, Owning.exec_bind, Owning.exec_own]
        simp only [sized]
        rw [if_pos zero]
        rfl
      exact .nothing stops (fails rfl)
    by_cases positive : 0 < size
    · have cut : (chunksOf size.toNat b.length b).flatten = b := flatten_chunksOf (by omega) (Nat.le_refl _)
      unfold feedBytes
      refine ⟨b, .ok (), w.memory, ?_, List.prefix_refl b, fun _ _ => rfl, nofun⟩
      rw [Owning.exec_bind, Owning.exec_own]
      simp only [sized]
      rw [if_neg zero, if_pos positive, exec_writeChunks isOpen, cut]
    · have skips : (feedBytes b).exec (p, r) w = (.ok (), (p, r), w) := by
        rw [feedBytes, Owning.exec_bind, Owning.exec_own]
        simp only [sized]
        rw [if_neg zero, if_neg positive, Owning.exec_pure]
      refine .nothing skips ⟨List.nil_prefix, fun _ cuts => ?_, nofun⟩
      · obtain ⟨_, same, more⟩ := cuts
        cases sized.symm.trans same
        exact absurd more positive

/-- **What a source hands over.** Whatever a pump is to be fed from, what goes to its writer is the beginning of what
there is to hand out, all of it when the source has come to its end, and it is counted. -/
theorem feedAll_hands (isOpen : r.closed = false) (p : Pump) (w : World) :
    Hands feedAll p r w (p.Offers w.memory) := by
  obtain ⟨buffer, given⟩ : ∃ buffer, p.buffer = buffer := ⟨_, rfl⟩
  have opened : feedAll.exec (p, r) w = feedAll.exec (p, r) w := rfl
  conv at opened =>
    rhs
    rw [feedAll, Owning.exec_bind, Owning.exec_own]
    dsimp only
    rw [given]
  have fixed (b : Bytes) (source : p.sourceBytes w.memory = b) (covers : p.Covers → p.Cuts)
      (ran : feedAll.exec (p, r) w = (feedBytes b).exec (p, r) w) : Hands feedAll p r w (p.Offers w.memory) := by
    obtain ⟨handed, ending, memory, fed, begins, whole, unbroken⟩ := feedBytes_hands isOpen b p w
    refine ⟨handed, ending, memory, ran.trans fed, source ▸ begins, fun ended all => ?_, fun e failed broken => ?_⟩
    · rw [source, whole ended (covers all)]
    · cases (unbroken e failed).symm.trans broken
  cases buffer with
  | text t =>
    dsimp only at opened
    cases spelled : p.encoded t with
    | error e =>
      rw [spelled] at opened
      refine .nothing opened ⟨List.nil_prefix, fun ended => (by cases ended), fun _ same broken => ?_⟩
      cases same
      cases (unbroken_of_encoded spelled).symm.trans broken
    | ok b =>
      rw [spelled] at opened
      refine fixed b ?_ (by unfold Covers; rw [given]; exact id) opened
      rw [sourceBytes, given]
      dsimp only
      rw [spell?_eq_some_iff.mpr spelled]
      rfl
  | bytes b => exact fixed b (by rw [sourceBytes, given]) (by unfold Covers; rw [given]; exact id) opened
  | view b => exact fixed b (by rw [sourceBytes, given]) (by unfold Covers; rw [given]; exact id) opened
  | object ref =>
    dsimp only at opened
    rw [Owning.exec_bind, Owning.exec_lift, Sim.exec_world] at opened
    dsimp only at opened
    by_cases isArray : ref.kind = .byteArray
    · rw [if_pos isArray] at opened
      refine fixed _ ?_ (by unfold Covers; rw [given]; dsimp only; rw [if_pos isArray]; exact id) opened
      rw [sourceBytes, given]
      dsimp only
      rw [if_pos isArray]
    · rw [if_neg isArray] at opened
      have hands : Hands (feedObject ref (w.memory.readsLeft ref + 1)) p r w _ := feedObject_hands isOpen _
      obtain ⟨handed, ending, memory, fed, reads⟩ := hands
      have source : p.sourceBytes w.memory = w.memory.toRead p.spell? ref := by
        rw [sourceBytes, given]
        dsimp only
        rw [if_neg isArray]
      refine ⟨handed, ending, memory, opened.trans fed, source ▸ reads.begins, fun ended covers => ?_,
        fun e failed broken => ?_⟩
      · unfold Covers at covers
        rw [given] at covers
        dsimp only at covers
        rw [if_neg isArray] at covers
        rw [source]
        exact reads.whole ended (Nat.lt_succ_self _) covers
      · obtain ⟨values, failure, found, same⟩ := reads.own e failed broken
        exact ⟨ref, values, failure, given, found, same⟩
  | unusable label =>
    refine .nothing opened
      ⟨List.nil_prefix, fun ended => (by cases ended), fun _ same broken => ?_⟩
    cases same
    cases broken

end Pump

end Pipework
