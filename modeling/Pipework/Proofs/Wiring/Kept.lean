import Pipework.Proofs.Wiring.Holders

/-!
# Ends that are kept

The far end of the pipe that is made for a buffer or for the caller is kept, and no command has it: no
stream is decided by the claim on it. So a pipe with a kept end has one side of which only its keeper knows.
Different kept ends are on different pipes.
-/

namespace Pipework

namespace Graph

variable {g leaf : Graph} {l : Lineage} {place : Place} {s : Stream} {c c' : Claim} {w : World}

/-- What the far end of the pipe of a redirect leads to. -/
def farChannel (s : Stream) (pipe : Nat) : Channel := if s = .stdin then .writeEnd pipe else .readEnd pipe

/-- What its near end leads to. -/
def nearChannel (s : Stream) (pipe : Nat) : Channel := if s = .stdin then .readEnd pipe else .writeEnd pipe

@[simp] theorem pipe?_nearChannel (s : Stream) (pipe : Nat) : (nearChannel s pipe).pipe? = some pipe := by
  unfold nearChannel
  split <;> rfl

@[simp] theorem pipe?_farChannel (s : Stream) (pipe : Nat) : (farChannel s pipe).pipe? = some pipe := by
  unfold farChannel
  split <;> rfl

private theorem far_mem_claims {t : Target} (made : t.making? place s = some (.ofRedirect place s)) :
    .far place s ∈ Chore.claims [.redirect place s t] := by
  rw [Chore.claims_cons, Chore.making?, made, Making.ofRedirect]
  by_cases isStdin : s = .stdin <;> simp [isStdin, Making.claims]

/-- Of the redirects that need a pipe, one makes the claim on its far end. -/
theorem target_of_far {t t' : Target} (known : .redirect place s t ∈ g.chores [])
    (made : t.making? place s = some (.ofRedirect place s)) (known' : .redirect place s t' ∈ g.chores [])
    (made' : t'.making? place s = some (.ofRedirect place s)) : t = t' :=
  (Chore.redirect.inj (Chore.eq_of_claim (Chore.apart_chores g []).distinct known known'
    (far_mem_claims made) (far_mem_claims made'))).2.2

/-- A redirect to the caller is none to a buffer. -/
theorem not_buffer_of_endpoint {held : Item} (isEndpoint : (place, s) ∈ g.endpoints) :
    (place, s, held) ∉ g.buffers := by
  intro isBuffer
  obtain ⟨chore, known, same⟩ := List.mem_filterMap.mp isEndpoint
  obtain ⟨chore', known', same'⟩ := List.mem_filterMap.mp isBuffer
  unfold Chore.endpoint? at same
  unfold Chore.buffer? at same'
  split at same <;> cases same
  split at same' <;> cases same'
  cases target_of_far known rfl known' rfl

/-- No stream of a command is decided by a claim on what is kept. -/
theorem nearest_ne_kept (kept : c ∈ g.kept) (occurs : (leaf, l) ∈ g.occurrences) (t : Stream) :
    leaf.nearest l t ≠ some c := by
  intro nearest
  obtain ⟨d, known', serves⟩ := nearest_served occurs nearest
  obtain ⟨place, s, target, rfl, known, noGraph, made⟩ := kept_cases kept
  cases d with
  | redirect place' s' target' =>
    rcases serves with same | ⟨isGraph, same⟩
    · cases same
    · cases same
      have made' : target'.making? place s = some (.ofRedirect place s) := by
        cases target' <;> cases isGraph
        rfl
      rw [target_of_far known made known' made', isGraph] at noGraph
      cases noGraph
  | edge place' => rcases serves with same | same <;> cases same
  | start leaf above => cases serves
  | refuse e => cases serves

/-- What is kept for a redirect leads to the far end of a pipe, and the redirected node has the near one. -/
theorem channels_of_kept (kept : .far place s ∈ g.kept) (w : World) : ∃ pipe,
    (.near place s, nearChannel s pipe) ∈ g.channels w ∧ (.far place s, farChannel s pipe) ∈ g.channels w := by
  obtain ⟨place, s, t, ⟨⟩, known, -, made⟩ := kept_cases kept
  have isMaking : .ofRedirect place s ∈ Chore.makings (g.chores []) :=
    List.mem_filterMap.mpr ⟨_, known, made⟩
  unfold Making.ofRedirect at isMaking
  unfold nearChannel farChannel
  split at isMaking
  · next isStdin =>
    simp only [if_pos isStdin]
    exact Making.channels_of_pipe isMaking w.pipes.length w.openings.length
  · next isOutput =>
    simp only [if_neg isOutput]
    obtain ⟨pipe, reads, writes⟩ := Making.channels_of_pipe isMaking w.pipes.length w.openings.length
    exact ⟨pipe, writes, reads⟩

/-- What is kept for a redirect leads to the far end of a pipe. -/
theorem channel_of_kept (kept : .far place s ∈ g.kept) (w : World) :
    ∃ pipe, (.far place s, farChannel s pipe) ∈ g.channels w := by
  obtain ⟨pipe, -, leads⟩ := channels_of_kept kept w
  exact ⟨pipe, leads⟩

/-- What is kept for a redirect of stdin writes to what the redirected node reads. -/
theorem channels_of_stdin (kept : .far place .stdin ∈ g.kept) (w : World) : ∃ pipe,
    (.near place .stdin, .readEnd pipe) ∈ g.channels w ∧ (.far place .stdin, .writeEnd pipe) ∈ g.channels w :=
  channels_of_kept kept w

/-- Of the two ends of a pipe at most one is kept. -/
private theorem not_kept_both {a b : Claim} (made : .pipe a b ∈ Chore.makings (g.chores []))
    (reads : a ∈ g.kept) : b ∉ g.kept := by
  intro writes
  obtain ⟨place, s, t, rfl, -⟩ := kept_cases reads
  obtain ⟨place', s', t', rfl, -⟩ := kept_cases writes
  obtain ⟨chore, -, makes⟩ := List.mem_filterMap.mp made
  cases chore with
  | redirect place s t =>
    rcases Chore.making?_cases makes with ⟨name, mode, same⟩ | ⟨-, same⟩ | same | ⟨d, same⟩ <;> cases same
  | edge place => cases makes
  | start leaf above => cases makes
  | refuse e => cases makes

/-- Different kept ends are on different pipes. -/
theorem eq_of_kept_pipe {channel channel' : Channel} {pipe : Nat} (kept : c ∈ g.kept) (kept' : c' ∈ g.kept)
    (leads : (c, channel) ∈ g.channels w) (leads' : (c', channel') ∈ g.channels w)
    (isEnd : channel.pipe? = some pipe) (isEnd' : channel'.pipe? = some pipe) : c = c' := by
  have same (equal : channel = channel') : c = c' := by
    subst equal
    exact congrArg Prod.fst (eq_of_nodup_map (Making.nodup_channels _ _ _) leads leads' rfl)
  cases channel <;> cases isEnd <;> cases channel' <;> cases isEnd'
  · exact same rfl
  · exact absurd kept' (not_kept_both (Making.pipe_of_ends leads leads') kept)
  · exact absurd kept (not_kept_both (Making.pipe_of_ends leads' leads) kept')
  · exact same rfl

/-- The other end of a pipe that is kept for an output is not kept. -/
theorem writeEnd_of_kept {pipe : Nat} (kept : .far place s ∈ g.kept) (isOutput : s ≠ .stdin)
    (leads : (.far place s, .readEnd pipe) ∈ g.channels w) :
    ∃ c, (c, .writeEnd pipe) ∈ g.channels w ∧ c ∉ g.kept := by
  obtain ⟨place, s, t, ⟨⟩, known, -, made⟩ := kept_cases kept
  have isMaking : .ofRedirect place s ∈ Chore.makings (g.chores []) :=
    List.mem_filterMap.mpr ⟨_, known, made⟩
  rw [Making.ofRedirect, if_neg isOutput] at isMaking
  obtain ⟨pipe', reads, writes⟩ := Making.channels_of_pipe isMaking w.pipes.length w.openings.length
  have distinct : ((g.channels w).map (·.1)).Nodup := by
    rw [g.map_fst_channels w]
    exact g.nodup_allocated
  cases eq_of_nodup_map distinct leads reads rfl
  refine ⟨_, writes, fun kept' => ?_⟩
  have same := eq_of_kept_pipe kept kept' reads writes rfl rfl
  cases eq_of_nodup_map distinct reads writes same

end Graph

namespace Wiring

variable {g : Graph} {settings : StartSettings} {w₀ w : World} {σ : Wiring} {events : List Event}
variable {starts : List Start}
variable (progress : Progress (g.values w₀.nextDescriptor) settings w₀ w
      (g.chores []) σ events starts)
include progress

/-- No process was started on what is kept. -/
theorem Progress.not_stream_of_kept (sound₀ : w₀.Sound) (hosted : g.Hosted w₀) {e : Claim × Channel}
    (isClaim : e ∈ g.channels w₀) (kept : e.1 ∈ g.kept) {pipe : Nat} (isEnd : e.2.pipe? = some pipe)
    {p : Process} (member : p ∈ w.processes) : e.2 ∉ [p.stdin, p.stdout, p.stderr] := by
  intro isStream
  rw [progress.roster.processes] at member
  rcases List.mem_append.mp member with old | new
  · have isNew := Making.channels_range isClaim pipe isEnd
    have := sound₀.streams p old e.2 isStream pipe isEnd
    omega
  · obtain ⟨s, started, isProcess⟩ := List.mem_filterMap.mp new
    cases result : s.result with
    | error e => simp [Start.process?, result] at isProcess
    | ok q =>
      simp only [Start.process?, result, Option.some.injEq] at isProcess
      subst isProcess
      have streams := progress.roster.streams s started q result
      have occurs : (s.leaf, s.above) ∈ g.occurrences := by
        rw [Graph.occurrences, ← progress.roster.occurrences]
        exact List.mem_map_of_mem started
      have decides {t : Stream} {inherited channel : Channel} (standard : inherited.pipe? = none)
          (onChannel : Sim.childChannel? w inherited
            ((s.leaf.nearest s.above t).map (g.values w₀.nextDescriptor)) = some channel) :
          e.2 ≠ channel := fun same =>
        Graph.nearest_ne_kept kept occurs t
          ((progress.stream_iff sound₀ hosted occurs standard onChannel isClaim isEnd).mp same.symm)
      simp only [List.mem_cons, List.not_mem_nil, or_false] at isStream
      rcases isStream with same | same | same
      · exact decides rfl streams.stdin same
      · exact decides rfl streams.stdout same
      · exact decides rfl streams.stderr same

end Wiring

end Pipework
