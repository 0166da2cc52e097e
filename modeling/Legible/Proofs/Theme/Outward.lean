import Mathlib.Data.List.Induction
import Legible.Proofs.Theme.Stepping

/-!
# The order of a search, and what it answers

A search walks a ramp outward from where it begins: at the level it is asked for, or at
the nearest one that the ramp has, the lighter of two. It visits every level once, the
nearer positions first, and of two positions that are equally near the darker one. Its
answer is the first level on this walk that is legible on the background; where there is
none, it is the first level of the walk, marked as not legible.
-/

namespace Legible

open Token

/-! ## Taking from two lists in turn -/

/-- Where the keys of one list are every other number from some number on, and those of a
second list the numbers between them, taking in turn puts the keys in order. -/
theorem pairwise_alternate {α : Type} {key : α → Nat} {first second : List α} {low : Nat}
    (firstKeys : first.map key = List.range' low first.length 2)
    (secondKeys : second.map key = List.range' (low + 1) second.length 2) :
    (alternate first second).Pairwise fun left right => key left < key right := by
  have ascending {list : List α} {start : Nat}
      (keys : list.map key = List.range' start list.length 2) :
      list.Pairwise fun left right => key left < key right := by
    rw [← List.pairwise_map (f := key), keys]
    exact List.pairwise_lt_range' 2
  have above {list : List α} {start : Nat}
      (keys : list.map key = List.range' start list.length 2) {member : α}
      (listed : member ∈ list) : start ≤ key member := by
    have own := List.mem_map_of_mem (f := key) listed
    rw [keys, List.mem_range'] at own
    obtain ⟨_, _, equal⟩ := own
    omega
  induction first generalizing second low with
  | nil => simpa [alternate] using ascending secondKeys
  | cons head tail inductionHypothesis =>
      cases second with
      | nil => simpa [alternate] using ascending firstKeys
      | cons other others =>
          simp only [List.map_cons, List.length_cons, List.range'_succ, List.cons.injEq]
            at firstKeys secondKeys
          obtain ⟨headKey, tailKeys⟩ := firstKeys
          obtain ⟨otherKey, othersKeys⟩ := secondKeys
          -- Whatever follows the two heads has a greater key than both.
          have later {member : α} (listed : member ∈ alternate tail others) :
              low + 2 ≤ key member := by
            rcases List.mem_append.1 ((alternate_perm tail others).mem_iff.1 listed) with
              among | among
            · exact above tailKeys among
            · exact Nat.le_of_succ_le (above othersKeys among)
          refine List.pairwise_cons.2 ⟨fun member listed => ?_,
            List.pairwise_cons.2 ⟨fun member listed => ?_, inductionHypothesis tailKeys othersKeys⟩⟩
          · rcases List.mem_cons.1 listed with rfl | listed
            · omega
            · have := later listed
              omega
          · have := later listed
            omega

namespace Ramp

variable {ramp : Ramp} {start level : Level} {position : Nat}

/-! ## Positions -/

/-- The levels of a ramp become darker one by one. -/
theorem sorted_levels (ramp : Ramp) :
    ramp.levels.Pairwise fun lighter darker => lighter.toNat < darker.toNat := by
  have ordered : ramp.levels.Pairwise fun lighter darker => compare lighter darker = .lt :=
    Std.TreeMap.ordered_keys
  exact ordered.imp fun before => UInt16.lt_iff_toNat_lt.1 (compareOfLessAndEq_eq_lt.1 before)

theorem nodup_levels (ramp : Ramp) : ramp.levels.Nodup :=
  Std.TreeMap.nodup_keys

/-- A level stands at a position exactly if it is the level at that position. -/
theorem position?_eq_some_iff :
    ramp.position? level = some position ↔ ramp.levelAt? position = some level := by
  rw [position?, List.findIdx?_eq_some_iff_getElem, levelAt?, List.getElem?_eq_some_iff]
  refine exists_congr fun inside => ⟨fun found => beq_iff_eq.1 found.1, fun own => ?_⟩
  refine ⟨beq_iff_eq.2 own, fun earlier before same => ?_⟩
  have equal := (List.getElem_inj ramp.nodup_levels).1 ((beq_iff_eq.1 same).trans own.symm)
  omega

/-- A level of a ramp stands where it is found first. -/
theorem position?_of_mem (listed : level ∈ ramp.levels) :
    ramp.position? level = some (ramp.levels.idxOf level) := by
  rw [position?_eq_some_iff, levelAt?]
  exact List.getElem?_idxOf listed

/-! ## Where a search begins -/

/-- The level of a ramp that is nearest to another one, and the lighter one when two
are. -/
structure IsNearest (ramp : Ramp) (target level : Level) : Prop where
  mem : level ∈ ramp.levels
  least : ∀ other ∈ ramp.levels, level.distance target < other.distance target ∨
    level.distance target = other.distance target ∧ level.toNat ≤ other.toNat

/-- A level that a ramp has is the nearest one to itself. -/
theorem isNearest_self (listed : start ∈ ramp.levels) : ramp.IsNearest start start where
  mem := listed
  least other _ := by
    simp only [Level.distance]
    omega

/-- Of the levels that are passed in order, the nearest one is kept, and the first when two
are equally near. -/
theorem foldl_nearer (target : Level) {first : Level} {rest : List Level}
    (sorted : (first :: rest).Pairwise fun lighter darker => lighter.toNat < darker.toNat) :
    rest.foldl (nearer target) first ∈ first :: rest ∧
      ∀ other ∈ first :: rest,
        (rest.foldl (nearer target) first).distance target < other.distance target ∨
          (rest.foldl (nearer target) first).distance target = other.distance target ∧
            (rest.foldl (nearer target) first).toNat ≤ other.toNat := by
  induction rest using List.reverseRecOn with
  | nil => simp
  | append_singleton rest last inductionHypothesis =>
      rw [← List.cons_append, List.pairwise_append] at sorted
      obtain ⟨earlier, -, before⟩ := sorted
      obtain ⟨listed, least⟩ := inductionHypothesis earlier
      rw [List.foldl_append, List.foldl_cons, List.foldl_nil, ← List.cons_append]
      generalize rest.foldl (nearer target) first = best at listed least ⊢
      have darker := before best listed last (List.mem_singleton_self last)
      rw [nearer]
      split
      · next closer =>
          refine ⟨List.mem_append_right _ (List.mem_singleton_self last), fun other among => ?_⟩
          rcases List.mem_append.1 among with among | own
          · rcases least other among with further | further <;> omega
          · rw [List.mem_singleton.1 own]
            omega
      · next further =>
          refine ⟨List.mem_append_left _ listed, fun other among => ?_⟩
          rcases List.mem_append.1 among with among | own
          · exact least other among
          · rw [List.mem_singleton.1 own]
            omega

theorem isNearest_of_nearest? (found : ramp.nearest? start = some level) :
    ramp.IsNearest start level := by
  have sorted := ramp.sorted_levels
  cases levels : ramp.levels with
  | nil => simp [nearest?, levels] at found
  | cons first rest =>
      rw [levels] at sorted
      obtain ⟨listed, least⟩ := foldl_nearer start sorted
      simp only [nearest?, levels, Option.some.injEq] at found
      rw [found] at listed least
      exact ⟨by rwa [levels], by rwa [levels]⟩

/-- A search begins at the position of the nearest level, which is the wanted one if the
ramp has it. A ramp without levels has no such position. -/
theorem origin?_cases (ramp : Ramp) (start : Level) :
    ramp.levels = [] ∧ ramp.origin? start = none ∨
      ∃ first, ramp.IsNearest start first ∧ (start ∈ ramp.levels → first = start) ∧
        ramp.origin? start = some (ramp.levels.idxOf first) := by
  by_cases listed : start ∈ ramp.levels
  · refine .inr ⟨start, isNearest_self listed, fun _ => rfl, ?_⟩
    rw [origin?, position?_of_mem listed]
    rfl
  · have missing : ramp.position? start = none := by
      rw [position?, List.findIdx?_eq_none_iff]
      intro level among
      exact beq_eq_false_iff_ne.2 fun same => listed (same ▸ among)
    rw [origin?, missing]
    cases found : ramp.nearest? start with
    | none =>
        refine .inl ⟨?_, rfl⟩
        cases levels : ramp.levels with
        | nil => rfl
        | cons first rest => simp [nearest?, levels] at found
    | some first =>
        have nearest := isNearest_of_nearest? found
        exact .inr ⟨first, nearest, fun own => absurd own listed, position?_of_mem nearest.mem⟩

/-! ## The walk -/

/-- How far a position is from the origin of a walk. -/
def gap (origin position : Nat) : Nat := (position - origin) + (origin - position)

/-- The first of two levels comes sooner on a walk from a position: it is nearer to it, or
as near and darker. -/
def Precedes (ramp : Ramp) (origin : Nat) (first second : Level) : Prop :=
  ∃ sooner later, ramp.position? first = some sooner ∧ ramp.position? second = some later ∧
    (gap origin sooner < gap origin later ∨
      gap origin sooner = gap origin later ∧ later < sooner)

/-- The turn at which a walk visits a position: the origin first, then the darker and the
lighter neighbours in turn. -/
def turn (origin position : Nat) : Nat :=
  if origin < position then 2 * (position - origin) - 1 else 2 * (origin - position)

/-- An earlier turn is a nearer position, or an equally near one that is darker. -/
theorem turn_lt_turn_iff {origin sooner later : Nat} :
    turn origin sooner < turn origin later ↔
      gap origin sooner < gap origin later ∨
        gap origin sooner = gap origin later ∧ later < sooner := by
  unfold turn gap
  split <;> split <;> omega

/-- A walk from a position visits every level once. -/
theorem outward_perm {levels : List Level} {origin : Nat} (inside : origin < levels.length) :
    (outward levels origin).Perm levels := by
  have around : (outward levels origin).Perm
      (levels.drop origin ++ levels.take origin) := by
    rw [outward, List.drop_eq_getElem_cons inside]
    exact ((alternate_perm _ _).trans ((List.reverse_perm _).append_left _)).cons _
  have turned : (levels.drop origin ++ levels.take origin).Perm levels := by
    have swapped : (levels.drop origin ++ levels.take origin).Perm
        (levels.take origin ++ levels.drop origin) := List.perm_append_comm
    rwa [List.take_append_drop] at swapped
  exact around.trans turned

/-- The darker neighbours are visited at every other turn, the nearest one first. -/
theorem turn_darker (origin index : Nat) : turn origin (origin + 1 + index) = 1 + 2 * index := by
  rw [turn, if_pos (by omega)]
  omega

/-- The lighter neighbours are visited at the turns between. -/
theorem turn_lighter {origin index : Nat} (inside : index < origin) :
    turn origin (origin - 1 - index) = 2 + 2 * index := by
  rw [turn, if_neg (by omega)]
  omega

/-- A walk visits the levels in the order of their turns. -/
theorem pairwise_outward {levels : List Level} (distinct : levels.Nodup) {origin : Nat}
    (inside : origin < levels.length) :
    (outward levels origin).Pairwise fun sooner later =>
      turn origin (levels.idxOf sooner) < turn origin (levels.idxOf later) := by
  have darkerTurns :
      (levels.drop (origin + 1)).map (fun level => turn origin (levels.idxOf level)) =
        List.range' 1 (levels.drop (origin + 1)).length 2 := by
    refine List.ext_getElem (by simp) fun index _ _ => ?_
    simp [distinct.idxOf_getElem, turn_darker]
  have lighterTurns :
      (levels.take origin).reverse.map (fun level => turn origin (levels.idxOf level)) =
        List.range' 2 (levels.take origin).reverse.length 2 := by
    refine List.ext_getElem (by simp) fun index within _ => ?_
    have before : index < origin := by
      simp only [List.length_map, List.length_reverse, List.length_take] at within
      omega
    simp [distinct.idxOf_getElem, Nat.min_eq_left (Nat.le_of_lt inside), turn_lighter before]
  have rest := pairwise_alternate darkerTurns lighterTurns
  rw [outward, List.drop_eq_getElem_cons inside]
  refine List.pairwise_cons.2 ⟨fun later listed => ?_, rest⟩
  -- The origin has the only turn that comes before all others.
  have first : turn origin (levels.idxOf levels[origin]) = 0 := by
    rw [distinct.idxOf_getElem, turn, if_neg (Nat.lt_irrefl _)]
    omega
  rw [first]
  rcases List.mem_append.1 ((alternate_perm _ _).mem_iff.1 listed) with among | among
  · have own := List.mem_map_of_mem (f := fun level => turn origin (levels.idxOf level)) among
    rw [darkerTurns, List.mem_range'] at own
    omega
  · have own := List.mem_map_of_mem (f := fun level => turn origin (levels.idxOf level)) among
    rw [lighterTurns, List.mem_range'] at own
    omega

/-- A walk over a ramp, in the order of its levels. -/
structure WalksFrom (ramp : Ramp) (start : Level) (order : List Level) : Prop where
  /-- Every level is visited once. -/
  perm : order.Perm ramp.levels
  /-- The walk begins at the level that it is asked for, -/
  own : start ∈ ramp.levels → order.head? = some start
  /-- or else at the nearest one, the lighter one when two are. -/
  nearest : ∀ first ∈ order.head?, ramp.IsNearest start first
  /-- From there the nearer levels come first, and of two equally near ones the darker. -/
  outward : ∀ first ∈ order.head?, ∃ origin, ramp.position? first = some origin ∧
    order.Pairwise (ramp.Precedes origin)

/-- The search order is a walk over the ramp. -/
theorem walksFrom_searchOrder (ramp : Ramp) (start : Level) :
    ramp.WalksFrom start (ramp.searchOrder start) := by
  rcases ramp.origin?_cases start with ⟨empty, none⟩ | ⟨first, nearest, own, origin⟩
  · rw [searchOrder, none]
    refine ⟨by rw [empty], fun listed => by simp [empty] at listed, ?_, ?_⟩
    · intro first begins
      cases begins
    · intro first begins
      cases begins
  · have inside : ramp.levels.idxOf first < ramp.levels.length :=
      List.idxOf_lt_length_iff.2 nearest.mem
    have perm := outward_perm inside
    have head : (Ramp.outward ramp.levels (ramp.levels.idxOf first)).head? = some first := by
      rw [Ramp.outward, List.drop_eq_getElem_cons inside]
      simp
    rw [searchOrder, origin]
    refine ⟨perm, fun listed => head.trans (congrArg some (own listed)), ?_, ?_⟩
    · intro other begins
      rw [head] at begins
      cases begins
      exact nearest
    · intro other begins
      rw [head] at begins
      cases begins
      refine ⟨_, position?_of_mem nearest.mem,
        (pairwise_outward ramp.nodup_levels inside).imp_of_mem fun among among' sooner => ?_⟩
      exact ⟨_, _, position?_of_mem (perm.mem_iff.1 among),
        position?_of_mem (perm.mem_iff.1 among'), turn_lt_turn_iff.1 sooner⟩

/-! ## What a search answers -/

/-- A level of a ramp is legible on a background at an opacity. -/
def Reads (ramp : Ramp) (background : Color) (opacity : Float) (level : Level) : Prop :=
  ∃ color, ramp.color? level = some color ∧
    ContrastRatio.threshold ≤ ContrastRatio.between (color.blendOver background opacity) background

/-- What a search has to answer: nothing for a ramp without levels, the first legible level of
the walk with all levels up to it, or, where no level is legible, the first level of the walk
with all of them. -/
inductive Answers (ramp : Ramp) (start : Level) (background : Color) (opacity : Float) :
    Option Step → Prop where
  | empty (bare : ramp.levels = []) : Answers ramp start background opacity none
  | legible {before after : List Level} {level : Level} {color : Color}
      (order : ramp.searchOrder start = before ++ level :: after)
      (passed : ∀ earlier ∈ before, ¬ ramp.Reads background opacity earlier)
      (reads : ramp.Reads background opacity level) (held : ramp.color? level = some color) :
      Answers ramp start background opacity
        (some ⟨.measure level color background opacity, true, before ++ [level]⟩)
  | exhausted {first : Level} {rest : List Level} {color : Color}
      (order : ramp.searchOrder start = first :: rest)
      (passed : ∀ level ∈ ramp.levels, ¬ ramp.Reads background opacity level)
      (held : ramp.color? first = some color) :
      Answers ramp start background opacity
        (some ⟨.measure first color background opacity, false, first :: rest⟩)

section

variable {background : Color} {opacity : Float}

/-- Each level on the walk gives one candidate. -/
theorem map_level_candidates (ramp : Ramp) (start : Level) (background : Color) (opacity : Float) :
    (ramp.candidates start background opacity).map Candidate.level = ramp.searchOrder start := by
  have own : ∀ level ∈ ramp.searchOrder start,
      ((ramp.color? level).map fun color =>
        Candidate.measure level color background opacity).map Candidate.level = some level := by
    intro level among
    have listed := (ramp.walksFrom_searchOrder start).perm.mem_iff.1 among
    obtain ⟨color, held⟩ := exists_color?_of_mem listed
    rw [held]
    rfl
  rw [candidates, List.map_filterMap, List.filterMap_congr own, List.filterMap_some]

/-- A candidate is legible exactly if its level reads on the background. -/
theorem isLegible_iff_reads {candidate : Candidate}
    (listed : candidate ∈ ramp.candidates start background opacity) :
    candidate.isLegible = true ↔ ramp.Reads background opacity candidate.level := by
  obtain ⟨color, held, measured⟩ := measured_of_mem_candidates listed
  have own : candidate.isLegible = true ↔ ContrastRatio.threshold ≤
      ContrastRatio.between (color.blendOver background opacity) background := by
    rw [measured]
    exact decide_eq_true_iff
  rw [own]
  constructor
  · exact fun enough => ⟨color, held, enough⟩
  · rintro ⟨color', held', enough⟩
    cases held.symm.trans held'
    exact enough

/-- A search answers what it has to. -/
theorem answers_search? (ramp : Ramp) (start : Level) (background : Color) (opacity : Float) :
    ramp.Answers start background opacity (ramp.search? start background opacity) := by
  have walk := ramp.walksFrom_searchOrder start
  have levels := ramp.map_level_candidates start background opacity
  have fails {candidate : Candidate}
      (listed : candidate ∈ ramp.candidates start background opacity)
      (illegible : candidate.isLegible = false) :
      ¬ ramp.Reads background opacity candidate.level := by
    rw [← isLegible_iff_reads listed, illegible]
    exact Bool.false_ne_true
  rw [search?]
  rcases Step.choose?_cases (ramp.candidates start background opacity) with
    ⟨none, outcome⟩ | ⟨before, found, after, split, failing, legible, outcome⟩ |
      ⟨first, rest, split, failing, outcome⟩
  · rw [none, List.map_nil] at levels
    rw [← levels] at walk
    rw [outcome]
    exact .empty (List.nil_perm.1 walk.perm)
  · have listed : found ∈ ramp.candidates start background opacity := by
      rw [split]
      exact List.mem_append_right _ List.mem_cons_self
    obtain ⟨color, held, measured⟩ := measured_of_mem_candidates listed
    rw [outcome, measured]
    have order : ramp.searchOrder start =
        before.map Candidate.level ++ found.level :: after.map Candidate.level := by
      rw [← levels, split, List.map_append, List.map_cons]
    refine .legible order (fun earlier among => ?_) ((isLegible_iff_reads listed).1 legible) held
    obtain ⟨candidate, passed, rfl⟩ := List.mem_map.1 among
    exact fails (split ▸ List.mem_append_left _ passed) (failing candidate passed)
  · have listed : first ∈ ramp.candidates start background opacity := by
      rw [split]
      exact List.mem_cons_self
    obtain ⟨color, held, measured⟩ := measured_of_mem_candidates listed
    have order := levels
    rw [split, List.map_cons] at order
    rw [outcome, levels, ← order, measured]
    refine .exhausted order.symm (fun level among => ?_) held
    rw [← walk.perm.mem_iff, ← levels] at among
    obtain ⟨candidate, passed, rfl⟩ := List.mem_map.1 among
    exact fails passed (failing candidate passed)

end

/-- A search walks outward over the whole ramp and answers with the first legible level on
its way. It has no answer only for a ramp without levels, and an answer that is marked as not
legible only where no level is legible. -/
theorem searches_outward (ramp : Ramp) (start : Level) (background : Color) (opacity : Float) :
    ramp.WalksFrom start (ramp.searchOrder start) ∧
      ramp.Answers start background opacity (ramp.search? start background opacity) ∧
      (ramp.search? start background opacity = none ↔ ramp.levels = []) ∧
      ((ramp.search? start background opacity).map Step.isLegible = some false ↔
        ramp.levels ≠ [] ∧ ∀ level ∈ ramp.levels, ¬ ramp.Reads background opacity level) := by
  have walk := ramp.walksFrom_searchOrder start
  have answers := ramp.answers_search? start background opacity
  have visited {level : Level} {before after : List Level}
      (order : ramp.searchOrder start = before ++ level :: after) : level ∈ ramp.levels := by
    rw [← walk.perm.mem_iff, order]
    exact List.mem_append_right _ List.mem_cons_self
  refine ⟨walk, answers, ?_⟩
  generalize ramp.search? start background opacity = outcome at answers
  cases answers with
  | empty bare => exact ⟨⟨fun _ => bare, fun _ => rfl⟩, ⟨nofun, fun some => absurd bare some.1⟩⟩
  | legible order _ reads _ =>
      have listed := visited order
      exact ⟨⟨nofun, fun bare => absurd bare (List.ne_nil_of_mem listed)⟩,
        ⟨nofun, fun passed => absurd reads (passed.2 _ listed)⟩⟩
  | exhausted order passed _ =>
      have some := List.ne_nil_of_mem (@visited _ [] _ order)
      exact ⟨⟨nofun, fun bare => absurd bare some⟩, ⟨fun _ => ⟨some, passed⟩, fun _ => rfl⟩⟩

/-- Between two levels that are equally near the walk begins at the lighter one; past the
darker end it goes on along the lighter side. -/
example :
    let shade (level : UInt16) : Level × Color := (⟨level⟩, .white)
    (Ramp.ofList "gray" [shade 100, shade 200, shade 400, shade 900]).searchOrder ⟨650⟩ =
      [⟨400⟩, ⟨900⟩, ⟨200⟩, ⟨100⟩] := by
  decide +kernel

end Ramp

end Legible
