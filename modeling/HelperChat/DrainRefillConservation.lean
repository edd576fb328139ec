import HelperChat.DrainRefill
import Mathlib.Algebra.Order.BigOperators.Group.List
import Mathlib.Algebra.Order.Group.Multiset
import Mathlib.Algebra.Order.Ring.Nat

/-!
# Conservation of items by draining and refilling workers

A worker that finds the shared queue nonempty removes from it in a later step. As long
as there is an item for every worker that has passed its test and not yet removed, no
removal finds the queue empty. Then every step moves items without inventing or losing
one, and every append finds room.

Items are compared up to a projection that the workers' transformations do not change.
-/

namespace DrainRefill

universe u v w
variable {Item : Type u} {Role : Type v} {Value : Type w} {task : Task Role Item}

/-- What a worker carries, oldest first: its own list and the item in hand. -/
def content (worker : Worker Role Item) : List Item :=
  match worker.phase with
  | .drainAdd item => worker.held ++ [item]
  | .refillAdd item => item :: worker.held
  | _ => worker.held

/-- All items of the pool: those in the shared queue, in the workers' lists and in
hand. -/
def items (pool : Pool Role Item) : List Item := pool.shared ++ pool.workers.flatMap content

/-- One for a worker that passed its test and is about to remove. -/
def claim (worker : Worker Role Item) : Nat :=
  match worker.phase with
  | .drainRemove => 1
  | _ => 0

/-- How many workers have passed their test and not yet removed. -/
def pending (pool : Pool Role Item) : Nat := (pool.workers.map claim).sum

/-- The worker's next removal finds an item and its next append finds room. -/
def Succeeds (capacity : Nat) (shared : List Item) (worker : Worker Role Item) : Prop :=
  match worker.phase with
  | .drainRemove => shared ≠ []
  | .drainAdd _ => worker.held.length ≠ capacity
  | .refillRemove => worker.held ≠ []
  | .refillAdd _ => shared.length ≠ capacity
  | _ => True

/-- A worker passes its test only while an item is left for it beside those that
other workers are about to remove. -/
def Spare (pool : Pool Role Item) (index : Nat) : Prop :=
  ∀ worker, pool.workers[index]? = some worker → worker.phase = .drainTest →
    pool.shared ≠ [] → pending pool < pool.shared.length

/-- The invariant of runs whose tests are all spare. -/
structure Accounted (capacity : Nat) (image : Item → Value) (initial : List Item)
    (pool : Pool Role Item) : Prop where
  conserved : ((items pool).map image).Perm (initial.map image)
  bounded : initial.length ≤ capacity
  available : pending pool ≤ pool.shared.length
  loaded : ∀ worker ∈ pool.workers, worker.phase = .refillRemove → worker.held ≠ []

/-- Conservation fixes the number of items. -/
theorem Accounted.length {capacity : Nat} {image : Item → Value} {initial : List Item}
    {pool : Pool Role Item} (accounted : Accounted capacity image initial pool) :
    (items pool).length = initial.length := by
  simpa using accounted.conserved.length_eq

/-- The shared queue and one worker's content are among the items. -/
theorem content_length_le {pool : Pool Role Item} {worker : Worker Role Item}
    (member : worker ∈ pool.workers) :
    pool.shared.length + (content worker).length ≤ (items pool).length := by
  have within : (content worker).Sublist (pool.workers.flatMap content) :=
    List.sublist_flatten_of_mem (List.mem_map_of_mem member)
  have atMost : (content worker).length ≤ (pool.workers.flatMap content).length :=
    within.length_le
  simp only [items, List.length_append]
  omega

/-- A worker that is about to remove is one of those counted as pending. -/
theorem claim_le_pending {pool : Pool Role Item} {worker : Worker Role Item}
    (member : worker ∈ pool.workers) : claim worker ≤ pending pool := by
  have counted : claim worker ∈ pool.workers.map claim := List.mem_map_of_mem member
  exact List.le_sum_of_mem counted

/-- Under the invariant the next call of every worker succeeds. -/
theorem Accounted.succeeds {capacity : Nat} {image : Item → Value} {initial : List Item}
    {pool : Pool Role Item} (accounted : Accounted capacity image initial pool)
    {worker : Worker Role Item} (member : worker ∈ pool.workers) :
    Succeeds capacity pool.shared worker := by
  have total : pool.shared.length + (content worker).length ≤ capacity :=
    (content_length_le member).trans (accounted.length.le.trans accounted.bounded)
  have claimed : claim worker ≤ pool.shared.length :=
    (claim_le_pending member).trans accounted.available
  have loaded := accounted.loaded worker member
  obtain ⟨role, held, phase⟩ := worker
  cases phase with
  | drainRemove =>
    intro empty
    simp [claim, empty] at claimed
  | drainAdd item =>
    intro full
    simp only [content, List.length_append, List.length_singleton] at total
    simp only at full
    omega
  | refillRemove => exact loaded rfl
  | refillAdd item =>
    intro full
    simp only [content, List.length_cons] at total
    omega
  | drainTest | refillTest | exited => trivial

/-- A move whose call succeeds keeps the shared queue and the worker's content
together, up to the projection. -/
theorem move_conserves {image : Item → Value}
    (unchanged : ∀ role item, image (task.transform role item) = image item)
    {shared after : List Item} {worker moved : Worker Role Item}
    (move : Move task shared worker after moved)
    (succeeds : Succeeds task.capacity shared worker) :
    ((after ++ content moved).map image).Perm ((shared ++ content worker).map image) := by
  cases move with
  | enterDrain | leaveDrain | keep | enterRefill | exit | release => exact .rfl
  | take role held item =>
    have carried : (after ++ held ++ [item]).Perm ([item] ++ (after ++ held)) :=
      List.perm_append_comm
    simpa [content, unchanged] using carried.map image
  | takeBlank => exact absurd rfl succeeds
  | keepFull role held item shared full => exact absurd full succeeds
  | releaseBlank => exact absurd rfl succeeds
  | putBack => simp [content]
  | putBackFull role held item shared full => exact absurd full succeeds

/-- A move whose call succeeds, and whose test leaves an item over, keeps as many
items as pending removals. -/
theorem move_available {shared after : List Item} {worker moved : Worker Role Item}
    (move : Move task shared worker after moved) (claims : Nat)
    (counted : claim worker ≤ claims) (available : claims ≤ shared.length)
    (spare : worker.phase = .drainTest → shared ≠ [] → claims < shared.length) :
    claims + claim moved ≤ after.length + claim worker := by
  cases move with
  | enterDrain role held item rest =>
    have room := spare rfl (List.cons_ne_nil item rest)
    simp only [claim, List.length_cons] at room ⊢
    omega
  | take role held item rest =>
    simp only [claim, List.length_cons] at available counted ⊢
    omega
  | putBack role held item shared room =>
    simp only [claim, List.length_append, List.length_singleton] at available ⊢
    omega
  | takeBlank =>
    simp only [claim, List.length_nil] at available counted ⊢
    omega
  | leaveDrain | keep | keepFull | enterRefill | exit | release | releaseBlank | putBackFull =>
    simpa [claim] using available

/-- A worker about to remove from its own list has passed the test of that list. -/
theorem move_loaded {shared after : List Item} {worker moved : Worker Role Item}
    (move : Move task shared worker after moved) :
    moved.phase = .refillRemove → moved.held ≠ [] := by
  cases move <;> simp

/-- One spare step preserves the invariant. -/
theorem Accounted.step {image : Item → Value} {initial : List Item}
    (unchanged : ∀ role item, image (task.transform role item) = image item)
    {pool next : Pool Role Item} {index : Nat}
    (accounted : Accounted task.capacity image initial pool) (spare : Spare pool index)
    (stepped : step task pool index = some next) :
    Accounted task.capacity image initial next := by
  obtain ⟨worker, moved, present, move, replaced⟩ := step_move stepped
  have member : worker ∈ pool.workers := List.mem_of_getElem? present
  have local_conserved := move_conserves unchanged move (accounted.succeeds member)
  have exchanged : ((next.workers.flatMap content ++ content worker).map image).Perm
      ((pool.workers.flatMap content ++ content moved).map image) := by
    rw [replaced]
    exact (MemberUpdate.flatMap_set_perm content pool.workers index worker moved present).map image
  refine ⟨?_, accounted.bounded, ?_, ?_⟩
  · -- Both multisets gain the old content of the moved worker, and agree then.
    refine List.Perm.trans ?_ accounted.conserved
    rw [← Multiset.coe_eq_coe]
    simp only [← Multiset.coe_eq_coe, List.map_append, ← Multiset.coe_add, items]
      at local_conserved exchanged ⊢
    refine add_right_cancel (b := ((content worker).map image : Multiset Value)) ?_
    rw [add_assoc, exchanged, add_left_comm, local_conserved]
    rw [add_left_comm, add_assoc]
  · have total := MemberUpdate.sum_map_set claim pool.workers index worker moved present
    have afterwards := move_available move (pending pool) (claim_le_pending member)
      accounted.available (spare worker present)
    have same : pending next + claim worker = pending pool + claim moved := by
      rw [pending, replaced]
      exact total
    omega
  · rw [replaced]
    exact MemberUpdate.forall_mem_set accounted.loaded (move_loaded move)

/-- In every run whose tests are spare, the items stay the initial ones and every call
succeeds. -/
theorem spare_run_accounted {image : Item → Value} {initial : List Item}
    (unchanged : ∀ role item, image (task.transform role item) = image item)
    {start final : Pool Role Item} {schedule : List Nat}
    (initially : Accounted task.capacity image initial start)
    (spare : TransitionSystem.Meets (step task) Spare start schedule)
    (ran : TransitionSystem.run (step task) start schedule = some final) :
    Accounted task.capacity image initial final :=
  TransitionSystem.guarded_run_preserves (Accounted task.capacity image initial)
    (fun _ _ _ accounted guarded stepped => accounted.step unchanged guarded stepped)
    initially spare ran

/-- Some worker is pending when any are counted. -/
theorem exists_pending {pool : Pool Role Item} (counted : 0 < pending pool) :
    ∃ (index : Nat) (worker : Worker Role Item),
      pool.workers[index]? = some worker ∧ worker.phase = .drainRemove := by
  obtain ⟨index, worker, present, positive⟩ := MemberUpdate.exists_of_sum_pos counted
  refine ⟨index, worker, present, ?_⟩
  unfold claim at positive
  split at positive
  case h_1 phase => exact phase
  case h_2 => exact absurd positive (Nat.lt_irrefl 0)

/-- With more pending removals than items, some of them can be made until one finds the
queue empty. -/
theorem overclaimed_fails (task : Task Role Item) {pool : Pool Role Item}
    (exceeding : pool.shared.length < pending pool) :
    ∃ schedule final, TransitionSystem.run (DrainRefill.step task) pool schedule = some final ∧
      final.shared = [] ∧ ∃ worker ∈ final.workers, worker.phase = .drainRemove := by
  obtain ⟨shared, workers⟩ := pool
  induction shared generalizing workers with
  | nil =>
    obtain ⟨index, worker, present, removing⟩ :=
      exists_pending (Nat.lt_of_le_of_lt (Nat.zero_le _) exceeding)
    exact ⟨[], _, rfl, rfl, worker, List.mem_of_getElem? present, removing⟩
  | cons item rest inductionHypothesis =>
    obtain ⟨index, ⟨role, held, phase⟩, present, removing⟩ :=
      exists_pending (Nat.lt_of_le_of_lt (Nat.zero_le _) exceeding)
    obtain rfl : phase = .drainRemove := removing
    let moved : Worker Role Item := ⟨role, held, .drainAdd (task.transform role item)⟩
    have stepped : DrainRefill.step task ⟨item :: rest, workers⟩ index =
        some ⟨rest, workers.set index moved⟩ := step_of_advance present rfl
    have total := MemberUpdate.sum_map_set claim workers index _ moved present
    have fewer : rest.length < pending (⟨rest, workers.set index moved⟩ : Pool Role Item) := by
      simp only [pending, List.length_cons, claim, moved, Nat.add_zero] at exceeding total ⊢
      omega
    obtain ⟨schedule, final, ran, empty, waiting⟩ := inductionHypothesis _ fewer
    exact ⟨index :: schedule, final, by rw [TransitionSystem.run_cons, stepped]; exact ran, empty,
      waiting⟩

/-- A worker exits with an empty list. -/
theorem move_spent {shared after : List Item} {worker moved : Worker Role Item}
    (move : Move task shared worker after moved) (gone : moved.phase = .exited) :
    moved.held = [] := by
  cases move <;> simp at gone ⊢

/-- A pool that can only ever hold blanks, and never fewer than fill the queue. -/
structure BlankFull (task : Task Role Item) (pool : Pool Role Item) : Prop where
  blanks : ∀ item ∈ items pool, item = task.blank
  filling : task.capacity ≤ (items pool).length
  bounded : pool.shared.length ≤ task.capacity
  spent : ∀ worker ∈ pool.workers, worker.phase = .exited → worker.held = []

/-- A move brings only blanks, or items that were there. -/
theorem move_items (stable : ∀ role, task.transform role task.blank = task.blank)
    {shared after : List Item} {worker moved : Worker Role Item}
    (move : Move task shared worker after moved)
    (blanks : ∀ item ∈ shared ++ content worker, item = task.blank) :
    ∀ item ∈ after ++ content moved, item = task.blank := by
  cases move with
  | enterDrain | leaveDrain | keep | enterRefill | exit | release => exact blanks
  | take role held item =>
    obtain rfl : item = task.blank := blanks item (by simp)
    simp only [content, List.mem_append, List.mem_cons, List.not_mem_nil, or_false, stable]
      at blanks ⊢
    rintro other (inAfter | inHeld | rfl)
    · exact blanks other (.inl (.inr inAfter))
    · exact blanks other (.inr inHeld)
    · rfl
  | takeBlank =>
    simp only [content, List.nil_append, List.mem_append, List.mem_singleton, stable]
      at blanks ⊢
    rintro other (inHeld | rfl)
    · exact blanks other inHeld
    · rfl
  | releaseBlank =>
    simp only [content, List.append_nil, List.mem_append, List.mem_singleton] at blanks ⊢
    rintro other (inShared | rfl)
    · exact blanks other inShared
    · rfl
  | keepFull | putBack | putBackFull =>
    simp only [content, List.mem_append, List.mem_cons, List.not_mem_nil, or_false]
      at blanks ⊢
    grind

/-- A move loses an item only if a full list remains, and the shared queue stays within
the capacity. -/
theorem move_filling {shared after : List Item} {worker moved : Worker Role Item}
    (move : Move task shared worker after moved) (bounded : shared.length ≤ task.capacity) :
    ((shared ++ content worker).length ≤ (after ++ content moved).length ∨
        task.capacity ≤ (after ++ content moved).length) ∧
      after.length ≤ task.capacity := by
  cases move with
  | enterDrain | leaveDrain | keep | enterRefill | exit | release =>
    exact ⟨.inl (Nat.le_refl _), bounded⟩
  | take | takeBlank | releaseBlank | keepFull | putBackFull | putBack =>
    simp only [content, List.length_append, List.length_cons, List.length_nil] at bounded ⊢
    omega

/-- One step, disturbed or not, preserves the invariant of blank pools. -/
theorem BlankFull.step (stable : ∀ role, task.transform role task.blank = task.blank)
    {pool next : Pool Role Item} {index : Nat} (full : BlankFull task pool)
    (stepped : DrainRefill.step task pool index = some next) : BlankFull task next := by
  obtain ⟨worker, moved, present, move, replaced⟩ := step_move stepped
  have member : worker ∈ pool.workers := List.mem_of_getElem? present
  have ofWorker : ∀ item ∈ content worker, item ∈ pool.workers.flatMap content :=
    fun item carried => List.mem_flatMap.mpr ⟨worker, member, carried⟩
  have localBlanks : ∀ item ∈ pool.shared ++ content worker, item = task.blank := by
    intro item among
    refine full.blanks item (List.mem_append.mpr ?_)
    exact (List.mem_append.mp among).imp_right (ofWorker item)
  have blanks := move_items stable move localBlanks
  obtain ⟨kept, bounded⟩ := move_filling move full.bounded
  have exchanged : (next.workers.flatMap content ++ content worker).Perm
      (pool.workers.flatMap content ++ content moved) := by
    rw [replaced]
    exact MemberUpdate.flatMap_set_perm content pool.workers index worker moved present
  refine ⟨?_, ?_, bounded, ?_⟩
  · intro item among
    rcases List.mem_append.mp among with queued | carried
    · exact blanks item (List.mem_append_left _ queued)
    · have either := exchanged.mem_iff.mp (List.mem_append_left _ carried)
      rcases List.mem_append.mp either with old | new
      · exact full.blanks item (List.mem_append_right _ old)
      · exact blanks item (List.mem_append_right _ new)
  · have lengths := exchanged.length_eq
    have enough := full.filling
    simp only [items, List.length_append] at lengths enough kept ⊢
    have atMost : (content worker).length ≤ (pool.workers.flatMap content).length :=
      (List.sublist_flatten_of_mem (List.mem_map_of_mem member)).length_le
    rcases kept with less | filled
    · omega
    · omega
  · rw [replaced]
    exact MemberUpdate.forall_mem_set full.spent (move_spent move)

/-- Whatever the schedule, a queue full of blanks is full of blanks again when all
workers have exited. -/
theorem blank_run_full (stable : ∀ role, task.transform role task.blank = task.blank)
    {start final : Pool Role Item} {schedule : List Nat} (initially : BlankFull task start)
    (ran : TransitionSystem.run (DrainRefill.step task) start schedule = some final)
    (exited : ∀ worker ∈ final.workers, worker.phase = .exited) :
    final.shared = List.replicate task.capacity task.blank := by
  have full : BlankFull task final :=
    TransitionSystem.run_preserves (BlankFull task)
      (fun _ _ _ before stepped => before.step stable stepped) initially ran
  have nothing : final.workers.flatMap content = [] := by
    apply List.flatMap_eq_nil_iff.mpr
    intro worker member
    simp [content, exited worker member, full.spent worker member (exited worker member)]
  have onlyQueue : items final = final.shared := by simp [items, nothing]
  have filling := full.filling
  rw [onlyQueue] at filling
  refine List.eq_replicate_iff.mpr ⟨Nat.le_antisymm full.bounded filling, ?_⟩
  intro item queued
  exact full.blanks item (onlyQueue ▸ queued)

end DrainRefill
