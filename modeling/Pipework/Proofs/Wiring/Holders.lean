import Pipework.Proofs.Wiring.Abort
import Pipework.Proofs.Wiring.Channels
import Pipework.Proofs.Wiring.Progress

/-!
# Who holds the ends of pipes

When all commands of a graph have been started and their side is closed, an end of a pipe is held by
exactly those streams of commands whose nearest claim is that end, and once more if it is kept for a
pump or for the caller. So nobody keeps a pipe open who should not.
-/

namespace Pipework

/-- The pipe of a redirect: the node has its near end, and its far end goes to what the redirect names. -/
def Making.ofRedirect (place : Place) (s : Stream) : Making :=
  if s = .stdin then .pipe (.near place s) (.far place s) else .pipe (.far place s) (.near place s)

namespace Graph

/-- What the claims of a graph on what is opened lead to, when it is started in a system. -/
def channels (g : Graph) (w : World) : List (Claim × Channel) :=
  Making.channels w.pipes.length w.openings.length (Chore.makings (g.chores []))

/-- The claims of a graph on what is opened, in the order in which it is opened. -/
def allocated (g : Graph) : List Claim := (Chore.makings (g.chores [])).flatMap Making.allocated

/-- The claims on the far ends of pipes that go to pumps and to the caller. -/
def kept (g : Graph) : List Claim :=
  g.buffers.map (fun b => .far b.1 b.2.1) ++ g.endpoints.map fun e => .far e.1 e.2

/-- How many streams of commands a claim decides. -/
def uses (g : Graph) (c : Claim) : Nat :=
  (g.occurrences.map fun o => Stream.all.countP fun s => o.1.nearest o.2 s = some c).sum

/-- The descriptors that the caller gives are open in a system, or stand for the null device. -/
def Hosted (g : Graph) (w : World) : Prop :=
  ∀ d c, .given d c ∈ Chore.makings (g.chores []) →
    d.toInt = Target.nullNumber ∨ ∃ x ∈ w.descriptors, (x.1 : Int) = d.toInt

/-- What decides a stream of a command is a descriptor of the caller with this number. -/
def Numbers (g : Graph) (o : Graph × Lineage) (s : Stream) (n : Int) : Prop :=
  ∃ c d, o.1.nearest o.2 s = some c ∧ .given d c ∈ Chore.makings (g.chores []) ∧ d.toInt = n

theorem map_fst_channels (g : Graph) (w : World) : (g.channels w).map (·.1) = g.allocated :=
  Making.map_fst_channels _ _ _

private theorem sublist_flatMap (makings : List Making) :
    (makings.flatMap Making.allocated).Sublist (makings.flatMap Making.claims) := by
  induction makings with
  | nil => exact .refl _
  | cons m rest ih => exact m.sublist_claims.append ih

theorem nodup_allocated (g : Graph) : g.allocated.Nodup :=
  (sublist_flatMap _).nodup (Chore.apart_chores g []).distinct

/-- Nothing that is opened goes to a claim on a descriptor of the caller. -/
theorem not_given_of_allocated {g : Graph} {c : Claim} (allocated : c ∈ g.allocated)
    (d : Descriptor) :
    .given d c ∉ Chore.makings (g.chores []) := by
  intro given
  obtain ⟨m, made, mine⟩ := List.mem_flatMap.mp allocated
  have distinct := (Chore.apart_chores g []).distinct
  obtain ⟨before, after, split⟩ := List.append_of_mem given
  rw [Chore.claims, split, List.flatMap_append, List.flatMap_cons] at distinct
  rw [split] at made
  have claimed := m.sublist_claims.subset mine
  obtain ⟨-, later, apart⟩ := List.nodup_append.mp distinct
  obtain ⟨-, -, apart'⟩ := List.nodup_append.mp later
  rcases List.mem_append.mp made with inBefore | inAfter
  · exact apart c (List.mem_flatMap.mpr ⟨m, inBefore, claimed⟩) c (by simp [Making.claims]) rfl
  · rcases List.mem_cons.mp inAfter with rfl | inAfter
    · cases mine
    · exact apart' c (by simp [Making.claims]) c (List.mem_flatMap.mpr ⟨m, inAfter, claimed⟩) rfl

/-- What is kept is the far end of the pipe that was made for a buffer or for the caller. -/
theorem kept_cases {g : Graph} {c : Claim} (kept : c ∈ g.kept) : ∃ place s t, c = .far place s ∧
    .redirect place s t ∈ g.chores [] ∧ t.isGraph = false ∧
      t.making? place s = some (.ofRedirect place s) := by
  rcases List.mem_append.mp kept with inBuffers | inEndpoints
  · obtain ⟨⟨place, s, held⟩, isBuffer, rfl⟩ := List.mem_map.mp inBuffers
    obtain ⟨chore, known, same⟩ := List.mem_filterMap.mp isBuffer
    unfold Chore.buffer? at same
    split at same <;> cases same
    exact ⟨place, s, _, rfl, known, rfl, rfl⟩
  · obtain ⟨⟨place, s⟩, isEndpoint, rfl⟩ := List.mem_map.mp inEndpoints
    obtain ⟨chore, known, same⟩ := List.mem_filterMap.mp isEndpoint
    unfold Chore.endpoint? at same
    split at same <;> cases same
    exact ⟨place, s, _, rfl, known, rfl, rfl⟩

/-- What is kept for pumps and for the caller has been opened. -/
theorem kept_subset (g : Graph) : ∀ c ∈ g.kept, c ∈ g.allocated := by
  intro c kept
  obtain ⟨place, s, t, rfl, known, -, made⟩ := kept_cases kept
  refine List.mem_flatMap.mpr ⟨_, List.mem_filterMap.mpr ⟨_, known, made⟩, ?_⟩
  unfold Making.ofRedirect
  split <;> simp [Making.allocated]

end Graph

namespace Wiring

open World

variable {g : Graph} {settings : StartSettings} {w₀ w : World} {σ : Wiring} {events : List Event}
variable {starts : List Start}

/-- What is open, at any moment of the walk. -/
theorem Progress.open_eq {done : List Chore}
    (progress : Progress (g.values w₀.nextDescriptor) settings w₀ w done σ events starts) :
    w.descriptors = w₀.descriptors ++
      (Making.channels w₀.pipes.length w₀.openings.length (Chore.makings done)).map fun e =>
        ((g.values w₀.nextDescriptor e.1).toNat, e.2) := by
  rw [progress.ledger.account.descriptors, closedBy_of_wiring progress.ledger.wiring, progress.served.allocated]
  simp

variable (progress : Progress (g.values w₀.nextDescriptor) settings w₀ w
      (g.chores []) σ events starts)
include progress

/-- What is open when the walk is over. -/
theorem Progress.descriptors :
    w.descriptors = w₀.descriptors
      ++ (g.channels w₀).map fun e => ((g.values w₀.nextDescriptor e.1).toNat, e.2) :=
  progress.open_eq

/-- A claim on something opened gets a new number. -/
theorem Progress.value_of_allocated {c : Claim} (allocated : c ∈ g.allocated) :
    ∃ n ∈ openedBy events, g.values w₀.nextDescriptor c = .number n ∧ w₀.nextDescriptor ≤ n := by
  obtain ⟨n, isOpened, same⟩ := progress.served.value_of_allocated allocated
  exact ⟨n, isOpened, same, (progress.ledger.account.mem_opened isOpened).1⟩

theorem Progress.injective {a b : Claim} (first : a ∈ g.allocated) (second : b ∈ g.allocated)
    (same : g.values w₀.nextDescriptor a = g.values w₀.nextDescriptor b) : a = b :=
  progress.served.injective progress.ledger.account.nodup_opened first second same

theorem Progress.toNat_injective {a b : Claim} (first : a ∈ g.allocated) (second : b ∈ g.allocated)
    (same : (g.values w₀.nextDescriptor a).toNat = (g.values w₀.nextDescriptor b).toNat) :
    a = b := by
  obtain ⟨n, -, isNumber, -⟩ := progress.value_of_allocated first
  obtain ⟨m, -, isNumber', -⟩ := progress.value_of_allocated second
  refine progress.injective first second ?_
  rw [isNumber, isNumber', Descriptor.toNat_number, Descriptor.toNat_number] at same
  rw [isNumber, isNumber', same]

omit progress in
theorem find?_of_unique {α : Type} {p : α → Bool} {l : List α} {a : α} (member : a ∈ l)
    (holds : p a = true) (unique : ∀ b ∈ l, p b = true → b = a) : l.find? p = some a := by
  cases found : l.find? p with
  | none => exact absurd holds (List.find?_eq_none.mp found a member)
  | some b => rw [unique b (List.mem_of_find?_eq_some found) (List.find?_some found)]

/-- The number that a claim gets leads where the claim does. -/
theorem Progress.channel?_of_claim (sound₀ : w₀.Sound) {e : Claim × Channel}
    (member : e ∈ g.channels w₀) :
    w.channel? (g.values w₀.nextDescriptor e.1).toInt = some e.2 := by
  have allocated : e.1 ∈ g.allocated := by
    rw [← g.map_fst_channels w₀]
    exact List.mem_map_of_mem member
  have distinct : ((g.channels w₀).map (·.1)).Nodup := by
    rw [g.map_fst_channels w₀]
    exact g.nodup_allocated
  obtain ⟨n, -, isNumber, large⟩ := progress.value_of_allocated allocated
  have notOld : w₀.descriptors.find? (fun x => (x.1 : Int) == n) = none := by
    refine List.find?_eq_none.mpr fun x old => ?_
    have small := sound₀.descriptors x (List.mem_append_left _ old)
    have : (x.1 : Int) ≠ n := by omega
    simpa using this
  have found : (g.channels w₀).find?
      ((fun x : Nat × Channel => (x.1 : Int) == n) ∘ fun e =>
        ((g.values w₀.nextDescriptor e.1).toNat, e.2)) = some e := by
    refine find?_of_unique member ?_ fun e' known same => ?_
    · simp [isNumber]
    · refine eq_of_nodup_map distinct known member (progress.toNat_injective ?_ allocated ?_)
      · rw [← g.map_fst_channels w₀]
        exact List.mem_map_of_mem known
      · have same : (((g.values w₀.nextDescriptor e'.1).toNat : Nat) : Int) = n := by
          simpa using same
        rw [isNumber, Descriptor.toNat_number]
        omega
  rw [World.channel?, isNumber]
  change ((w.descriptors.find? fun x => (x.1 : Int) == n).map (·.2)) = _
  rw [progress.descriptors, List.find?_append, notOld, Option.none_or, List.find?_map, found]
  rfl

/-- A number that leads to an end of a new pipe is the number that its claim got. -/
private theorem Progress.channel?_iff (sound₀ : w₀.Sound) {d : Int} {e : Claim × Channel}
    (member : e ∈ g.channels w₀) {pipe : Nat} (isEnd : e.2.pipe? = some pipe) :
    w.channel? d = some e.2 ↔ d = (g.values w₀.nextDescriptor e.1).toInt := by
  refine ⟨fun leads => ?_, fun same => same ▸ progress.channel?_of_claim sound₀ member⟩
  obtain ⟨x, found, same⟩ := Option.map_eq_some_iff.mp leads
  have number : (x.1 : Int) = d := by simpa using List.find?_some found
  have isOpen := List.mem_of_find?_eq_some found
  rw [progress.descriptors] at isOpen
  rcases List.mem_append.mp isOpen with old | new
  · have isOld := sound₀.ends x (List.mem_append_left _ old) pipe (same ▸ isEnd)
    have isNew := Making.channels_range member pipe isEnd
    omega
  · obtain ⟨e', known, rfl⟩ := List.mem_map.mp new
    cases eq_of_nodup_map (Making.nodup_channels _ _ _) known member same
    have allocated : e.1 ∈ g.allocated := by
      rw [← g.map_fst_channels w₀]
      exact List.mem_map_of_mem member
    obtain ⟨n, -, isNumber, -⟩ := progress.value_of_allocated allocated
    rw [← number, isNumber]
    rfl

/-- A stream of a command is on an end of a new pipe exactly if that end is its nearest claim, or if its
nearest claim is a descriptor of the caller with the number that the end got. -/
theorem Progress.stream_iff_of_number (sound₀ : w₀.Sound) {leaf : Graph} {l : Lineage}
    (occurs : (leaf, l) ∈ g.occurrences) {s : Stream} {inherited channel : Channel}
    (standard : inherited.pipe? = none)
    (onChannel : Sim.childChannel? w inherited
      ((leaf.nearest l s).map (g.values w₀.nextDescriptor)) = some channel)
    {e : Claim × Channel} (member : e ∈ g.channels w₀) {pipe : Nat}
    (isEnd : e.2.pipe? = some pipe) :
    channel = e.2 ↔ leaf.nearest l s = some e.1 ∨
      g.Numbers (leaf, l) s (g.values w₀.nextDescriptor e.1).toInt := by
  have distinct : ((g.channels w₀).map (·.1)).Nodup := by
    rw [g.map_fst_channels w₀]
    exact g.nodup_allocated
  have allocated {e : Claim × Channel} (member : e ∈ g.channels w₀) : e.1 ∈ g.allocated := by
    rw [← g.map_fst_channels w₀]
    exact List.mem_map_of_mem member
  have notNull {e : Claim × Channel} (member : e ∈ g.channels w₀) :
      (g.values w₀.nextDescriptor e.1).toInt ≠ Target.nullNumber := by
    obtain ⟨n, -, isNumber, -⟩ := progress.value_of_allocated (allocated member)
    rw [isNumber]
    change (n : Int) ≠ -3
    omega
  cases nearest : leaf.nearest l s with
  | none =>
    rw [nearest] at onChannel
    cases onChannel
    refine ⟨fun same => ?_, ?_⟩
    · rw [same, isEnd] at standard
      cases standard
    · rintro (none | ⟨c, d, decides, -⟩)
      · cases none
      · cases nearest.symm.trans decides
  | some c =>
    rw [nearest, Option.map_some] at onChannel
    obtain ⟨m, made, claimed⟩ := List.mem_flatMap.mp
      (g.nearest_mem_claims progress.possible occurs nearest)
    rcases Making.mem_claims.mp claimed with mine | ⟨d, rfl⟩
    · -- Something opened: it leads to its own channel, and nothing else leads there.
      have isAllocated : c ∈ g.allocated := List.mem_flatMap.mpr ⟨m, made, mine⟩
      have notGiven := Graph.not_given_of_allocated isAllocated
      rw [← g.map_fst_channels w₀, List.mem_map] at isAllocated
      obtain ⟨e', known, rfl⟩ := isAllocated
      rw [Sim.childChannel?, if_neg (notNull known), progress.channel?_of_claim sound₀ known] at onChannel
      cases onChannel
      constructor
      · intro same
        rw [eq_of_nodup_map (Making.nodup_channels _ _ _) known member same]
        exact .inl rfl
      · rintro (same | ⟨c, d, decides, given, -⟩)
        · rw [eq_of_nodup_map distinct known member (Option.some.inj same)]
        · cases nearest.symm.trans decides
          exact absurd given (notGiven d)
    · -- A descriptor of the caller: it leads to the end if it has the number of the end.
      have other : c ≠ e.1 := by
        rintro rfl
        exact Graph.not_given_of_allocated (allocated member) d made
      have isGiven := (g.fit_values w₀.nextDescriptor).of_given made
      rw [isGiven, Sim.childChannel?] at onChannel
      constructor
      · rintro rfl
        refine .inr ⟨c, d, nearest, made, ?_⟩
        split at onChannel
        · rw [← Option.some.inj onChannel] at isEnd
          cases isEnd
        · exact (progress.channel?_iff sound₀ member isEnd).mp onChannel
      · rintro (same | ⟨c', d', decides, given, number⟩)
        · exact absurd (Option.some.inj same) other
        · cases nearest.symm.trans decides
          have same : d' = d := ((g.fit_values w₀.nextDescriptor).of_given given).symm.trans isGiven
          rw [← same, if_neg (number ▸ notNull member),
            (progress.channel?_iff sound₀ member isEnd).mpr number] at onChannel
          exact (Option.some.inj onChannel).symm

/-- What the caller gives is older than what is opened, so no descriptor of his has its number. -/
theorem Progress.not_numbers (sound₀ : w₀.Sound) (hosted : g.Hosted w₀) {o : Graph × Lineage} {s : Stream}
    {c : Claim} (allocated : c ∈ g.allocated) : ¬ g.Numbers o s (g.values w₀.nextDescriptor c).toInt := by
  rintro ⟨c', d, -, given, number⟩
  obtain ⟨n, -, isNumber, large⟩ := progress.value_of_allocated allocated
  have same : d.toInt = n := by rw [number, isNumber]; rfl
  rcases hosted d c' given with isNull | ⟨x, isOpen, old⟩
  · rw [isNull, Target.nullNumber] at same
    omega
  · have := sound₀.descriptors x (List.mem_append_left _ isOpen)
    omega

/-- A stream of a command is on an end of a new pipe exactly if that end is its nearest claim. -/
theorem Progress.stream_iff (sound₀ : w₀.Sound) (hosted : g.Hosted w₀) {leaf : Graph} {l : Lineage}
    (occurs : (leaf, l) ∈ g.occurrences) {s : Stream} {inherited channel : Channel}
    (standard : inherited.pipe? = none)
    (onChannel : Sim.childChannel? w inherited
      ((leaf.nearest l s).map (g.values w₀.nextDescriptor)) = some channel)
    {e : Claim × Channel} (member : e ∈ g.channels w₀) {pipe : Nat}
    (isEnd : e.2.pipe? = some pipe) :
    channel = e.2 ↔ leaf.nearest l s = some e.1 := by
  have allocated : e.1 ∈ g.allocated := by
    rw [← g.map_fst_channels w₀]
    exact List.mem_map_of_mem member
  rw [progress.stream_iff_of_number sound₀ occurs standard onChannel member isEnd]
  exact or_iff_left (progress.not_numbers sound₀ hosted allocated)

/-- A command holds an end as often as it is the nearest claim on one of its streams. -/
private theorem Progress.holds_process (sound₀ : w₀.Sound) (hosted : g.Hosted w₀) {s : Start}
    (member : s ∈ starts) {p : Process} (started : s.result = .ok p) {e : Claim × Channel}
    (isClaim : e ∈ g.channels w₀) {pipe : Nat}
    (isEnd : e.2.pipe? = some pipe) :
    p.holds e.2 = Stream.all.countP fun t => s.leaf.nearest s.above t = some e.1 := by
  have streams := progress.roster.streams s member p started
  have occurs : (s.leaf, s.above) ∈ g.occurrences := by
    rw [Graph.occurrences, ← progress.roster.occurrences]
    exact List.mem_map_of_mem member
  have stdin := progress.stream_iff sound₀ hosted occurs rfl streams.stdin isClaim isEnd
  have stdout := progress.stream_iff sound₀ hosted occurs rfl streams.stdout isClaim isEnd
  have stderr := progress.stream_iff sound₀ hosted occurs rfl streams.stderr isClaim isEnd
  have alive : p.alive = true := by simp [Process.alive, streams.exit]
  simp only [Process.holds, alive, if_true, Stream.all, List.count_cons, List.count_nil,
    List.countP_cons, List.countP_nil, beq_iff_eq, stdin, stdout, stderr, decide_eq_true_eq]

omit progress in
private theorem sum_holds (c : Channel) (f : Graph × Lineage → Nat) (starts : List Start)
    (each : ∀ s ∈ starts, ∃ p, s.result = .ok p ∧ p.holds c = f (s.leaf, s.above)) :
    ((starts.filterMap Start.process?).map (·.holds c)).sum =
      ((starts.map fun s => (s.leaf, s.above)).map f).sum := by
  induction starts with
  | nil => rfl
  | cons s rest ih =>
    obtain ⟨p, started, count⟩ := each s List.mem_cons_self
    have found : s.process? = some p := by rw [Start.process?, started]
    rw [List.filterMap_cons_some found, List.map_cons, List.sum_cons, count,
      ih fun t member => each t (List.mem_cons_of_mem _ member)]
    simp

/-- The processes of the system hold an end of a new pipe as often as it is a nearest claim. -/
theorem Progress.sum_holds (sound₀ : w₀.Sound) (hosted : g.Hosted w₀)
    (started : ∀ s ∈ starts, ∃ p, s.result = .ok p) {e : Claim × Channel}
    (isClaim : e ∈ g.channels w₀) {pipe : Nat}
    (isEnd : e.2.pipe? = some pipe) : (w.processes.map (·.holds e.2)).sum = g.uses e.1 := by
  have isNew := Making.channels_range isClaim pipe isEnd
  have old : (w₀.processes.map (·.holds e.2)).sum = 0 := by
    refine List.sum_eq_zero_iff_forall_eq_nat.mpr fun n member => ?_
    obtain ⟨p, known, rfl⟩ := List.mem_map.mp member
    have absent : e.2 ∉ [p.stdin, p.stdout, p.stderr] := fun isStream => by
      have := sound₀.streams p known e.2 isStream pipe isEnd
      omega
    simp [Process.holds, List.count_eq_zero.mpr absent]
  have new := Wiring.sum_holds e.2 (fun o => Stream.all.countP fun t =>
      o.1.nearest o.2 t = some e.1) starts
    fun s member => by
      obtain ⟨p, result⟩ := started s member
      exact ⟨p, result, progress.holds_process sound₀ hosted member result isClaim isEnd⟩
  rw [progress.roster.processes, List.map_append, List.sum_append, old, Nat.zero_add, new,
    progress.roster.occurrences]
  rfl

omit progress in
private theorem flatMap_mapIdx {α β γ : Type} {f : Nat → α → β} {parts : β → List γ} {k : α → γ}
    (same : ∀ i a, parts (f i a) = [k a]) (l : List α) : (l.mapIdx f).flatMap parts = l.map k := by
  induction l generalizing f with
  | nil => rfl
  | cons a rest ih =>
    rw [List.mapIdx_cons, List.flatMap_cons, same, ih fun i b => same (i + 1) b]
    rfl

/-- When the side of the commands is closed, what is left open is kept for the pumps and for the
caller. -/
theorem Progress.kept_perm (sound₀ : w₀.Sound) :
    (g.kept.map fun c => (g.values w₀.nextDescriptor c).toNat).Perm
      (leftOpenBy (events ++ (σ.childDescriptors ++ σ.files).map .closed)) := by
  obtain ⟨-, kept⟩ := progress.exec_closeChildSide sound₀
  have pumps : σ.pumps.flatMap Pump.descriptors
      = g.buffers.map fun b => (g.values w₀.nextDescriptor (.far b.1 b.2.1)).toNat := by
    have one (i : Nat) (b : Place × Stream × Item) :
        (pumpOf (g.values w₀.nextDescriptor) settings i b).descriptors
          = [(g.values w₀.nextDescriptor (.far b.1 b.2.1)).toNat] := rfl
    rw [progress.served.pumps]
    exact flatMap_mapIdx one _
  have endpoints : σ.endpoints.map (·.2.descriptor)
      = g.endpoints.map fun e => (g.values w₀.nextDescriptor (.far e.1 e.2)).toNat := by
    rw [progress.served.endpoints, List.map_map]
    exact List.map_congr_left fun e _ => descriptor_newEndpoint e.2 _
  have perm := kept.kept
  rw [pumps, endpoints] at perm
  rw [Graph.kept, List.map_append, List.map_map, List.map_map]
  exact List.perm_append_comm.trans perm

omit progress in
private theorem countP_filter_of_mem {α β : Type} [BEq β] [LawfulBEq β] {l : List (α × β)}
    {e : α × β} (keep : α → Bool) (distinct : (l.map (·.2)).Nodup) (member : e ∈ l) :
    (l.filter fun x => keep x.1).countP (·.2 == e.2) = if keep e.1 then 1 else 0 := by
  induction l with
  | nil => cases member
  | cons x rest ih =>
    rw [List.map_cons, List.nodup_cons] at distinct
    have elsewhere (absent : e.2 ∉ rest.map (·.2)) :
        (rest.filter fun x => keep x.1).countP (·.2 == e.2) = 0 := by
      refine List.countP_eq_zero.mpr fun y known same => absent ?_
      have same : y.2 = e.2 := by simpa using same
      exact same ▸ List.mem_map_of_mem (List.mem_filter.mp known).1
    rcases List.mem_cons.mp member with rfl | inRest
    · rw [List.filter_cons]
      split
      · rw [List.countP_cons, elsewhere distinct.1]
        simp
      · exact elsewhere distinct.1
    · have other : (x.2 == e.2) = false := by
        have : x.2 ≠ e.2 := fun same => distinct.1 (same ▸ List.mem_map_of_mem inRest)
        simpa using this
      rw [← ih distinct.2 inRest, List.filter_cons]
      split
      · rw [List.countP_cons, other]
        simp
      · rfl

/-- When the side of the commands is closed, an end of a new pipe is open under one number if it is
kept, and under none otherwise. -/
theorem Progress.countP_descriptors (sound₀ : w₀.Sound) {e : Claim × Channel}
    (isClaim : e ∈ g.channels w₀) {pipe : Nat} (isEnd : e.2.pipe? = some pipe) :
    (w.shutAll (σ.childDescriptors ++ σ.files)).descriptors.countP (·.2 == e.2) =
      if e.1 ∈ g.kept then 1 else 0 := by
  obtain ⟨-, kept⟩ := progress.exec_closeChildSide sound₀
  have isNew := Making.channels_range isClaim pipe isEnd
  have old : w₀.descriptors.countP (·.2 == e.2) = 0 := by
    refine List.countP_eq_zero.mpr fun x known same => ?_
    have same : x.2 = e.2 := by simpa using same
    have := sound₀.ends x (List.mem_append_left _ known) pipe (same ▸ isEnd)
    omega
  have allocated : allocatedBy w₀.pipes.length w₀.openings.length
      (events ++ (σ.childDescriptors ++ σ.files).map .closed)
      = (g.channels w₀).map fun e => ((g.values w₀.nextDescriptor e.1).toNat, e.2) := by
    rw [allocatedBy_append, progress.served.allocated, allocatedBy_of_quiet (openedBy_map_closed _),
      List.append_nil]
    rfl
  have isKept : (g.values w₀.nextDescriptor e.1).toNat ∉ closedBy
      (events ++ (σ.childDescriptors ++ σ.files).map .closed)
      ↔ e.1 ∈ g.kept := by
    have isAllocated : e.1 ∈ g.allocated := by
      rw [← g.map_fst_channels w₀]
      exact List.mem_map_of_mem isClaim
    obtain ⟨n, isOpened, isNumber, -⟩ := progress.value_of_allocated isAllocated
    have left : (g.values w₀.nextDescriptor e.1).toNat
        ∈ leftOpenBy (events ++ (σ.childDescriptors ++ σ.files).map .closed) ↔ _ := List.mem_filter
    rw [isNumber, Descriptor.toNat_number] at left ⊢
    rw [openedBy_append, openedBy_map_closed, List.append_nil] at left
    constructor
    · intro unclosed
      have member := (progress.kept_perm sound₀).mem_iff.mpr (left.mpr ⟨isOpened,
          decide_eq_true unclosed⟩)
      obtain ⟨c, isKept, same⟩ := List.mem_map.mp member
      have same : (g.values w₀.nextDescriptor c).toNat =
          (g.values w₀.nextDescriptor e.1).toNat := by
        rw [same, isNumber, Descriptor.toNat_number]
      rw [← progress.toNat_injective (g.kept_subset c isKept) isAllocated same]
      exact isKept
    · intro isKept
      have member : n ∈ g.kept.map fun c => (g.values w₀.nextDescriptor c).toNat :=
        List.mem_map.mpr ⟨e.1, isKept, by rw [isNumber, Descriptor.toNat_number]⟩
      exact of_decide_eq_true (left.mp ((progress.kept_perm sound₀).mem_iff.mp member)).2
  have one := countP_filter_of_mem (e := e)
    (fun c => decide ((g.values w₀.nextDescriptor c).toNat
      ∉ closedBy (events ++ (σ.childDescriptors ++ σ.files).map .closed)))
    (Making.nodup_channels _ _ _) isClaim
  rw [kept.account.descriptors, List.countP_append, old, Nat.zero_add, allocated, List.filter_map,
    List.countP_map]
  simp only [Function.comp_def, decide_eq_true_eq, isKept] at one ⊢
  exact one

/-- Every end of a new pipe is held once by every stream of a command whose nearest claim it is, and
once more if it is kept. -/
theorem Progress.holders (sound₀ : w₀.Sound) (hosted : g.Hosted w₀)
    (started : ∀ s ∈ starts, ∃ p, s.result = .ok p) {e : Claim × Channel}
    (isClaim : e ∈ g.channels w₀) {pipe : Nat} (isEnd : e.2.pipe? = some pipe) :
    (w.shutAll (σ.childDescriptors ++ σ.files)).holders e.2 = g.uses e.1 +
      if e.1 ∈ g.kept then 1 else 0 := by
  rw [World.holders, ← List.sum_eq_foldr, progress.countP_descriptors sound₀ isClaim isEnd,
    processes_shutAll, progress.sum_holds sound₀ hosted started isClaim isEnd, Nat.add_comm]

end Wiring

end Pipework
