import Pipework.Text.Coding

/-!
# Decoding in pieces

A decoder that is fed one piece after the other comes to the same as one that is fed all at once
(`Decoder.feed_append`), and what comes out is never longer than what went in, even at the end, where an
unfinished character counts for what it amounts to. So the texts that some chunks come to are together the text of all
of them (`Coding.flatten_transcript`).
-/

namespace Pipework

/-- How many pieces an unfinished character amounts to at most. -/
def Unfinished.most : Unfinished → Nat
  | none => 0
  | sequence .. => 1
  | surrogate _ => 2
  | units seen => max 1 seen.length

namespace Unfinished

@[simp] theorem most_none : none.most = 0 := rfl

@[simp] theorem most_sequence (seen : Bytes) (owed : Nat) (low high : UInt8) (value : Nat) :
    (sequence seen owed low high value).most = 1 := rfl

@[simp] theorem most_surrogate (last : UInt8) : (surrogate last).most = 2 := rfl

@[simp] theorem most_units (seen : Bytes) : (units seen).most = max 1 seen.length := rfl

end Unfinished

namespace Decoder

private theorem foldl_out (coding : Coding) (bytes : Bytes) (s : Unfinished) (out : List Piece) :
    bytes.foldl (fun (s, out) b => ((stepState coding s b).1, (stepState coding s b).2.reverseAux out)) (s, out) =
      ((feed ⟨coding, s⟩ bytes).1.state, (feed ⟨coding, s⟩ bytes).2.reverse ++ out) := by
  have split (bytes : Bytes) (s : Unfinished) (out : List Piece) :
      bytes.foldl (fun (s, out) b => ((stepState coding s b).1, (stepState coding s b).2.reverseAux out)) (s, out) =
        let r := bytes.foldl
          (fun (s, out) b => ((stepState coding s b).1, (stepState coding s b).2.reverseAux out)) (s, [])
        (r.1, r.2 ++ out) := by
    induction bytes generalizing s out with
    | nil => rfl
    | cons b rest ih =>
      simp only [List.foldl_cons]
      rw [ih, ih _ ((stepState coding s b).2.reverseAux [])]
      simp [List.reverseAux_eq]
  rw [split]
  simp [feed]

@[simp] theorem feed_nil (d : Decoder) : d.feed [] = (d, []) := rfl

theorem feed_cons (d : Decoder) (b : UInt8) (rest : Bytes) : d.feed (b :: rest) =
    let step := stepState d.coding d.state b
    ((feed ⟨d.coding, step.1⟩ rest).1, step.2 ++ (feed ⟨d.coding, step.1⟩ rest).2) := by
  dsimp only
  conv => lhs; unfold feed
  simp only [List.foldl_cons]
  rw [foldl_out]
  simp [List.reverseAux_eq, feed]

/-- Bytes may be fed in parts. -/
theorem feed_append (d : Decoder) (a b : Bytes) :
    d.feed (a ++ b) = ((d.feed a).1.feed b |>.1, (d.feed a).2 ++ ((d.feed a).1.feed b).2) := by
  induction a generalizing d with
  | nil => simp
  | cons x rest ih =>
    simp only [List.cons_append, feed_cons, ih, List.append_assoc]

private theorem utf8First_length (b : UInt8) : (utf8First b).2.length + (utf8First b).1.most ≤ 1 := by
  unfold utf8First
  repeat' split
  all_goals simp

private theorem utf16Unit_length (a b : UInt8) : (utf16Unit a b).2.length + (utf16Unit a b).1.most ≤ 2 := by
  unfold utf16Unit
  dsimp only
  repeat' split
  all_goals simp

private theorem utf8Step_length (s : Unfinished) (b : UInt8) :
    (utf8Step s b).2.length + (utf8Step s b).1.most ≤ s.most + 1 := by
  have first := utf8First_length b
  unfold utf8Step
  split
  · split
    · dsimp only
      split <;> simp
    · split
      · simp
      · simp only [List.length_cons, Unfinished.most_sequence]
        omega
  · simp only [surrogatePieces, List.length_append, List.length_cons, List.length_nil, Unfinished.most_surrogate]
    omega
  · omega

private theorem utf16Step_length (s : Unfinished) (b : UInt8) :
    (utf16Step s b).2.length + (utf16Step s b).1.most ≤ s.most + 1 := by
  unfold utf16Step
  split
  · next b₀ =>
    have unit := utf16Unit_length b₀ b
    simpa using unit
  · simp
  · next b₀ b₁ b₂ =>
    have unit := utf16Unit_length b₂ b
    dsimp only
    split
    · simp
    · simp only [List.length_cons, Unfinished.most_units, List.length_nil]
      omega
  · simp only [List.length_nil, Unfinished.most_units, List.length_cons]
    omega

/-- A byte completes no more pieces than have been begun. -/
theorem stepState_length (coding : Coding) (s : Unfinished) (b : UInt8) :
    (stepState coding s b).2.length + (stepState coding s b).1.most ≤ s.most + 1 := by
  cases coding with
  | latin1 | ascii => simp [stepState]
  | utf8 => exact utf8Step_length s b
  | utf16le => exact utf16Step_length s b

theorem feed_length (d : Decoder) (bytes : Bytes) :
    (d.feed bytes).2.length + (d.feed bytes).1.state.most ≤ d.state.most + bytes.length := by
  induction bytes generalizing d with
  | nil => simp
  | cons b rest ih =>
    have step := stepState_length d.coding d.state b
    have later := ih ⟨d.coding, (stepState d.coding d.state b).1⟩
    rw [feed_cons]
    simp only [List.length_append, List.length_cons] at later ⊢
    omega

theorem finish_length (d : Decoder) : d.finish.length ≤ d.state.most := by
  unfold finish
  split <;> simp [*, surrogatePieces, Nat.le_max_left]

/-- The texts that some chunks come to, one after the other. -/
def told (d : Decoder) : List Bytes → List Text
  | [] => []
  | chunk :: rest => (d.feed chunk).2.map Piece.replaced :: told (d.feed chunk).1 rest

theorem told_concat (d : Decoder) (chunks : List Bytes) (chunk : Bytes) : d.told (chunks ++ [chunk])
    = d.told chunks ++ [((d.feed chunks.flatten).1.feed chunk).2.map Piece.replaced] := by
  induction chunks generalizing d with
  | nil => rfl
  | cons first rest ih => rw [List.cons_append, told, told, ih, List.flatten_cons, feed_append, List.cons_append]

theorem flatten_told (d : Decoder) (chunks : List Bytes) :
    (d.told chunks).flatten = (d.feed chunks.flatten).2.map Piece.replaced := by
  induction chunks generalizing d with
  | nil => rfl
  | cons first rest ih => rw [told, List.flatten_cons, ih, List.flatten_cons, feed_append, List.map_append]

end Decoder

theorem Coding.decode?_eq (coding : Coding) (bytes : Bytes) : coding.decode? bytes =
    let fed := (Decoder.mk coding .none).feed bytes
    (fed.2 ++ fed.1.finish).mapM Piece.strict? := rfl

theorem Coding.decodeReplacing_eq (coding : Coding) (bytes : Bytes) : coding.decodeReplacing bytes
    = ((Decoder.mk coding .none).feed bytes).2.map Piece.replaced
      ++ ((Decoder.mk coding .none).feed bytes).1.finish.map Piece.replaced := List.map_append

/-- The texts that some chunks come to. What is left of a character at the end is one more. -/
def Coding.transcript (coding : Coding) (chunks : List Bytes) : List Text :=
  let rest := ((Decoder.mk coding .none).feed chunks.flatten).1.finish
  (Decoder.mk coding .none).told chunks ++ if rest = [] then [] else [rest.map Piece.replaced]

namespace Coding

variable {coding : Coding} {chunks : List Bytes}

theorem transcript_of_none (nothing : ((Decoder.mk coding .none).feed chunks.flatten).1.finish = []) :
    coding.transcript chunks = (Decoder.mk coding .none).told chunks := by
  rw [transcript, nothing]
  exact List.append_nil _

theorem transcript_of_some (any : ((Decoder.mk coding .none).feed chunks.flatten).1.finish ≠ []) :
    coding.transcript chunks = (Decoder.mk coding .none).told chunks
      ++ [((Decoder.mk coding .none).feed chunks.flatten).1.finish.map Piece.replaced] := by
  rw [transcript, if_neg any]

/-- Together they are the text of the whole content. -/
theorem flatten_transcript (coding : Coding) (chunks : List Bytes) :
    (coding.transcript chunks).flatten = coding.decodeReplacing chunks.flatten := by
  rw [transcript, List.flatten_append, Decoder.flatten_told, decodeReplacing_eq]
  split
  · next nothing => rw [nothing, List.flatten_nil, List.map_nil]
  · rw [List.flatten_singleton]

end Coding

end Pipework
