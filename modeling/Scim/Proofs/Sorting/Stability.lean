import Scim.Proofs.Sorting.Merging
import Scim.Sorting.Schedule

/-!
# The sort is stable

Cutting a list into runs, filling them up and merging them in whatever order gives the
stable arrangement of the list.  As there is only one, the items of a part are sorted as
they are within the whole.
-/

namespace Scim.Sorting

variable {α : Type} {less : α → α → Bool} {known : α → Prop}

/-! ## Runs -/

/-- A continuation in which each item is related to the one before it is related
throughout. -/
theorem runFrom_pairwise (related : α → α → Bool)
    (trans : ∀ a b c, known a → known b → known c → related a b = true → related b c = true →
      related a c = true)
    {last : α} {items : List α} (kl : known last) (within : ∀ a ∈ items, known a) :
    (last :: (runFrom related last items).1).Pairwise fun a b => related a b = true := by
  induction items generalizing last with
  | nil => exact List.pairwise_singleton _ last
  | cons item rest ih =>
      obtain ⟨ki, krest⟩ := List.forall_mem_cons.mp within
      rw [runFrom]
      split
      · next next' =>
          have others := ih ki krest
          refine List.pairwise_cons.mpr ⟨?_, others⟩
          intro a member
          rcases List.mem_cons.mp member with rfl | later
          · exact next'
          · have inRest : a ∈ rest := by
              rw [← runFrom_append related item rest]
              exact List.mem_append_left _ later
            exact trans last item a kl ki (krest a inRest) next'
              (List.rel_of_pairwise_cons others later)
      · exact List.pairwise_singleton _ last

/-- Of items in strictly reverse order at most one is level with another item. -/
theorem filter_level_reverse (order : Orders less known) {run : List α}
    (within : ∀ a ∈ run, known a) (falling : run.Pairwise fun a b => less b a = true) {z : α}
    (kz : known z) : run.reverse.filter (level less z) = run.filter (level less z) := by
  rw [List.filter_reverse]
  rcases found : run.filter (level less z) with _ | ⟨a, _ | ⟨b, rest⟩⟩
  · rfl
  · rfl
  · have fallen := falling.filter (level less z)
    have member (c : α) (inside : c ∈ a :: b :: rest) : known c ∧ level less z c = true := by
      rw [← found, List.mem_filter] at inside
      exact ⟨within c inside.1, inside.2⟩
    obtain ⟨ka, za⟩ := member a List.mem_cons_self
    obtain ⟨kb, zb⟩ := member b (List.mem_cons_of_mem a List.mem_cons_self)
    rw [found] at fallen
    have before := List.rel_of_pairwise_cons fallen List.mem_cons_self
    have back := order.trans a z b ka kz kb ((level_iff z a).mp za).2 ((level_iff z b).mp zb).1
    rw [NotAfter, before] at back
    cases back

/-- A run that is strictly in reverse order is arranged by turning it around. -/
theorem Arranged.of_falling (order : Orders less known) {run : List α}
    (within : ∀ a ∈ run, known a) (falling : run.Pairwise fun a b => less b a = true) :
    Arranged less known run run.reverse where
  within := within
  perm := List.reverse_perm run
  ordered := List.pairwise_reverse.mpr (falling.imp fun before => order.notAfter_of_less before)
  stable _ kz := filter_level_reverse order within falling kz

/-- The run at the start of a list is the stable arrangement of the items that it takes. -/
theorem naturalRun_arranged (order : Orders less known) {items : List α}
    (within : ∀ a ∈ items, known a) :
    ∃ cut, cut ++ (naturalRun less items).2 = items ∧
      Arranged less known cut (naturalRun less items).1 := by
  rcases items with _ | ⟨first, _ | ⟨second, rest⟩⟩
  · exact ⟨[], rfl, .of_ordered within .nil⟩
  · exact ⟨[first], rfl, .of_ordered within (List.pairwise_singleton _ first)⟩
  · obtain ⟨kf, krest⟩ := List.forall_mem_cons.mp within
    have taken (related : α → α → Bool) :
        (first :: (runFrom related first (second :: rest)).1) ++
          (runFrom related first (second :: rest)).2 = first :: second :: rest :=
      congrArg (first :: ·) (runFrom_append related first (second :: rest))
    have inRun (related : α → α → Bool) :
        ∀ a ∈ first :: (runFrom related first (second :: rest)).1, known a := by
      intro a member
      refine within a ?_
      rw [← taken related]
      exact List.mem_append_left _ member
    rw [naturalRun]
    split
    · have falling := runFrom_pairwise (fun a b => less b a) (fun a b c ka kb kc ba cb =>
        order.less_of_less_of_notAfter kc kb ka cb (order.notAfter_of_less ba)) kf krest
      exact ⟨_, taken _, .of_falling order (inRun _) falling⟩
    · have rising := runFrom_pairwise (fun a b => !less b a) (fun a b c ka kb kc ba cb => by
        simp only [Bool.not_eq_true'] at ba cb ⊢
        exact order.trans a b c ka kb kc ba cb) kf krest
      refine ⟨_, taken _, .of_ordered (inRun _) (rising.imp fun {a b} before => ?_)⟩
      simpa [NotAfter] using before

/-- Inserting an item is merging it in as a run of its own. -/
theorem insert_eq_merge (order : Orders less known) {run : List α} {item : α} (ki : known item)
    (within : ∀ a ∈ run, known a) (ordered : run.Pairwise (NotAfter less)) :
    insert less run item = List.merge run [item] fun x y => !less y x := by
  have bordered : Bordered (fun other => !less item other) run := by
    refine ordered.imp_of_mem ?_
    intro a b ka kb before passes
    simp only [Bool.not_eq_true'] at passes ⊢
    exact order.trans a b item (within a ka) (within b kb) ki before passes
  rw [insert, bisect_eq .forward bordered (Nat.zero_le _) border_le_length, take_border,
    drop_border, merge_eq_takeWhile_append]
  congr 1
  cases left : run.dropWhile (fun other => !less item other) with
  | nil => exact (List.nil_merge _).symm
  | cons other rest =>
      have fails := failed_of_dropWhile left
      rw [List.cons_merge_cons_neg _ _ _ (by simpa using fails), List.merge_right]

/-- A run that is filled up arranges the items that it took and those that it is filled with. -/
theorem foldl_insert_arranged (order : Orders less known) {cut run : List α}
    (arranged : Arranged less known cut run) {items : List α} (within : ∀ a ∈ items, known a) :
    Arranged less known (cut ++ items) (items.foldl (insert less) run) := by
  induction items generalizing cut run with
  | nil => simpa using arranged
  | cons item rest ih =>
      obtain ⟨ki, krest⟩ := List.forall_mem_cons.mp within
      have single : Arranged less known [item] [item] :=
        .of_ordered (by simpa using ki) (List.pairwise_singleton _ item)
      have inserted := arranged.of_append single (arranged_headwise order
        (fun a => arranged.known_of_mem) single.within arranged.ordered single.ordered)
      rw [← insert_eq_merge order ki (fun a => arranged.known_of_mem) arranged.ordered] at inserted
      have filled := ih inserted krest
      rwa [List.append_assoc] at filled

theorem takeRun_arranged (order : Orders less known) (least : Nat) {items : List α}
    (within : ∀ a ∈ items, known a) :
    ∃ cut, cut ++ (takeRun less least items).2 = items ∧
      Arranged less known cut (takeRun less least items).1 := by
  obtain ⟨cut, whole, arranged⟩ := naturalRun_arranged order within
  simp only [takeRun]
  generalize least - (naturalRun less items).1.length = lacking
  generalize naturalRun less items = natural at whole arranged
  obtain ⟨run, rest⟩ := natural
  have krest : ∀ a ∈ rest.take lacking, known a := by
    intro a member
    refine within a ?_
    rw [← whole]
    exact List.mem_append_right cut (List.mem_of_mem_take member)
  refine ⟨cut ++ rest.take lacking, ?_, foldl_insert_arranged order arranged krest⟩
  rw [List.append_assoc, List.take_append_drop]
  exact whole

/-- The runs of a list are the stable arrangements of the pieces that it is cut into. -/
theorem runs_arranged (order : Orders less known) (least : Nat) {items : List α}
    (within : ∀ a ∈ items, known a) :
    ∃ pieces, pieces.flatten = items ∧
      List.Forall₂ (Arranged less known) pieces (runs less least items) := by
  induction items using runs.induct less least with
  | case1 =>
      rw [runs]
      exact ⟨[], rfl, .nil⟩
  | case2 first rest cut ih =>
      obtain ⟨piece, whole, arranged⟩ := takeRun_arranged order least within
      obtain ⟨pieces, others, later⟩ := ih (by
        intro a member
        refine within a ?_
        rw [← whole]
        exact List.mem_append_right piece member)
      rw [runs]
      exact ⟨piece :: pieces, by rw [List.flatten_cons, others]; exact whole, .cons arranged later⟩

/-! ## Merging the runs -/

/-- Runs that wait for their merge, the last one first, and the items that they arrange. -/
inductive Waits (less : α → α → Bool) (known : α → Prop) : List (List α) → List α → Prop where
  | nil : Waits less known [] []
  | cons {waiting : List (List α)} {items cut run : List α}
      (earlier : Waits less known waiting items)
      (arranged : Arranged less known cut run) : Waits less known (run :: waiting) (items ++ cut)

/-- Two adjacent runs are merged into one. -/
theorem Arranged.merge (order : Orders less known) {cut₁ cut₂ run₁ run₂ : List α}
    (first : Arranged less known cut₁ run₁) (second : Arranged less known cut₂ run₂)
    (patience : Nat) :
    Arranged less known (cut₁ ++ cut₂) ((merge less run₁ run₂).run patience).1 :=
  first.of_append second (arranged_merge order (fun _ => first.known_of_mem)
    (fun _ => second.known_of_mem) first.ordered second.ordered patience)

/-- Merging with some of the runs that wait leaves runs that arrange the same items. -/
theorem mergeDeeper_waits (order : Orders less known) (limit : Nat) (waiting : Waiting α)
    {items cut run : List α} (waits : Waits less known (waiting.map (·.1)) items)
    (arranged : Arranged less known cut run) (patience : Nat) :
    ∃ items' cut', items' ++ cut' = items ++ cut ∧
      Waits less known
        (((mergeDeeper less limit waiting run).run patience).1.1.map (·.1)) items' ∧
      Arranged less known cut' ((mergeDeeper less limit waiting run).run patience).1.2 := by
  induction waiting generalizing items cut run patience with
  | nil => exact ⟨items, cut, rfl, waits, arranged⟩
  | cons before waiting ih =>
      obtain ⟨before, depth⟩ := before
      rw [mergeDeeper]
      split
      · rw [List.map_cons] at waits
        cases waits with
        | cons earlier last =>
            obtain ⟨items', cut', same, rest, merged⟩ := ih earlier
              (last.merge order arranged patience) ((Sorting.merge less before run).run patience).2
            exact ⟨items', cut', by rw [same, List.append_assoc], rest, merged⟩
      · exact ⟨items, cut, rfl, waits, arranged⟩

/-- Merging with all the runs that wait gives one run, whichever merges come first. -/
theorem mergeAll_arranged (order : Orders less known) (waiting : List (List α))
    {items cut run : List α} (waits : Waits less known waiting items)
    (arranged : Arranged less known cut run) (patience : Nat) :
    Arranged less known (items ++ cut) ((mergeAll less waiting run).run patience).1 := by
  induction waiting, run using mergeAll.induct generalizing items cut patience with
  | case1 run =>
      cases waits
      rw [mergeAll]
      exact arranged
  | case2 before run =>
      cases waits with
      | cons earlier last =>
          cases earlier
          rw [mergeAll]
          exact last.merge order arranged patience
  | case3 before earlier waiting run shorter ih =>
      cases waits with
      | cons first last =>
          cases first with
          | cons others middle =>
              rw [mergeAll, if_pos shorter]
              have whole := ih _ (.cons others (middle.merge order last patience)) arranged
                ((Sorting.merge less earlier before).run patience).2
              rwa [← List.append_assoc] at whole
  | case4 before earlier waiting run longer ih =>
      cases waits with
      | cons first last =>
          rw [mergeAll, if_neg longer, List.append_assoc]
          exact ih _ first (last.merge order arranged patience) _

/-- Whatever the depths of the boundaries are, all runs are merged in their order. -/
theorem mergeRuns_arranged (order : Orders less known) (length : Nat) {pieces : List (List α)}
    {later : List (List α)} (follow : List.Forall₂ (Arranged less known) pieces later)
    (start : Nat) (waiting : Waiting α) {items cut run : List α}
    (waits : Waits less known (waiting.map (·.1)) items)
    (arranged : Arranged less known cut run) (patience : Nat) :
    Arranged less known (items ++ (cut ++ pieces.flatten))
      ((mergeRuns less length start waiting run later).run patience).1 := by
  induction follow generalizing start waiting items cut run patience with
  | nil =>
      rw [mergeRuns, List.flatten_nil, List.append_nil]
      exact mergeAll_arranged order _ waits arranged patience
  | @cons _ following _ _ next rest ih =>
      let depth := boundaryDepth length start run following
      let step := (mergeDeeper less depth waiting run).run patience
      obtain ⟨items', cut', same, waits', merged⟩ :=
        mergeDeeper_waits order depth waiting waits arranged patience
      have whole := ih (start + run.length) ((step.1.2, depth) :: step.1.1) (.cons waits' merged)
        next step.2
      rw [same, List.append_assoc] at whole
      rw [mergeRuns]
      exact whole

/-- The sort gives the stable arrangement of a list. -/
theorem sort_arranged (order : Orders less known) {items : List α}
    (within : ∀ a ∈ items, known a) : Arranged less known items (sort less items) := by
  obtain ⟨pieces, whole, cut⟩ := runs_arranged order (leastRun items.length) within
  rw [sort]
  generalize runs less (leastRun items.length) items = found at cut ⊢
  cases cut with
  | nil =>
      rw [List.flatten_nil] at whole
      rw [← whole]
      exact .of_ordered (by simp) .nil
  | cons first follow =>
      have merged := mergeRuns_arranged order items.length follow 0 [] .nil first initialPatience
      rw [List.nil_append, ← List.flatten_cons, whole] at merged
      exact merged

theorem sort_of_falling (order : Orders less known) {items : List α}
    (within : ∀ a ∈ items, known a) (falling : items.Pairwise fun a b => less b a = true) :
    sort less items = items.reverse :=
  (sort_arranged order within).unique order (.of_falling order within falling)

/-- Sorting commutes with leaving items out. -/
theorem sort_filter (order : Orders less known) {items : List α}
    (within : ∀ a ∈ items, known a) (keep : α → Bool) :
    sort less (items.filter keep) = (sort less items).filter keep :=
  (sort_arranged order fun a member => within a (List.mem_of_mem_filter member)).unique order
    ((sort_arranged order within).filter keep)

end Scim.Sorting
