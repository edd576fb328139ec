import HelperChat.DrainRefillConservation

/-!
# Order and completeness of undisturbed draining and refilling

A pool is undisturbed as long as a worker removes an item, or finds the shared queue
empty, only while no other worker carries items. At most one worker then carries items
at any time. Its drained items stand before those still in the queue, and its items to
be put back stand behind them, so the pool's items form one line.

The line keeps its order. A worker that has left its drain loop found the queue empty
while it carried the whole line, so it has transformed every item; later workers keep
that. When all workers have exited, the queue is the line, and every role has been
applied to every item.
-/

namespace DrainRefill

universe u v w
variable {Item : Type u} {Role : Type v} {Value : Type w} {task : Task Role Item}

/-- The worker is still in its first loop. -/
def draining (worker : Worker Role Item) : Bool :=
  match worker.phase with
  | .drainTest | .drainRemove | .drainAdd _ => true
  | _ => false

/-- What a draining worker has taken from the front of the queue. -/
def taken (worker : Worker Role Item) : List Item :=
  if draining worker then content worker else []

/-- What a refilling worker still has to put back. -/
def returning (worker : Worker Role Item) : List Item :=
  if draining worker then [] else content worker

/-- The items of the pool in one line: taken ones, queued ones, those to be put back. -/
def line (pool : Pool Role Item) : List Item :=
  pool.workers.flatMap taken ++ pool.shared ++ pool.workers.flatMap returning

/-- No worker other than the one at the position carries an item. -/
def OthersEmpty (pool : Pool Role Item) (index : Nat) : Prop :=
  ∀ other member, other ≠ index → pool.workers[other]? = some member → content member = []

/-- A worker removes an item or finds the queue empty only while no other worker
carries one. -/
def Undisturbed (pool : Pool Role Item) (index : Nat) : Prop :=
  ∀ worker, pool.workers[index]? = some worker →
    worker.phase = .drainRemove ∨ (worker.phase = .drainTest ∧ pool.shared = []) →
    OthersEmpty pool index

/-- What the transformations must satisfy: the projection does not see them, a role's
own transformation settles an item for the role, and no transformation unsettles it. -/
structure Settling (transform : Role → Item → Item) (image : Item → Value)
    (Settled : Role → Item → Prop) : Prop where
  unchanged : ∀ role item, image (transform role item) = image item
  settles : ∀ role item, Settled role (transform role item)
  keeps : ∀ role other item, Settled role item → Settled role (transform other item)

/-- The invariant of undisturbed runs. -/
structure InLine (capacity : Nat) (image : Item → Value) (Settled : Role → Item → Prop)
    (initial : List Item) (pool : Pool Role Item) : Prop where
  same : (line pool).map image = initial.map image
  bounded : initial.length ≤ capacity
  finished : ∀ worker ∈ pool.workers, draining worker = false →
    ∀ item ∈ line pool, Settled worker.role item
  processed : ∀ worker ∈ pool.workers, ∀ item ∈ taken worker, Settled worker.role item
  single : ∀ index worker, pool.workers[index]? = some worker → content worker ≠ [] →
    OthersEmpty pool index
  awaited : ∀ worker ∈ pool.workers, worker.phase = .drainRemove →
    line pool ≠ [] ∧ (worker.held ≠ [] → pool.shared ≠ [])
  loaded : ∀ worker ∈ pool.workers, worker.phase = .refillRemove → worker.held ≠ []
  spent : ∀ worker ∈ pool.workers, worker.phase = .exited → worker.held = []

/-- A worker without content has neither taken items nor items to return. -/
theorem sides_of_content_nil {worker : Worker Role Item} (empty : content worker = []) :
    taken worker = [] ∧ returning worker = [] := by
  simp [taken, returning, empty]

/-- The line of a pool whose items outside the queue are one worker's. -/
theorem line_alone {pool : Pool Role Item} {index : Nat} {worker : Worker Role Item}
    (present : pool.workers[index]? = some worker) (others : OthersEmpty pool index) :
    line pool = taken worker ++ pool.shared ++ returning worker := by
  have front : pool.workers.flatMap taken = taken worker :=
    MemberUpdate.flatMap_single taken pool.workers index worker present
      fun other member different found =>
        (sides_of_content_nil (others other member different found)).1
  have back : pool.workers.flatMap returning = returning worker :=
    MemberUpdate.flatMap_single returning pool.workers index worker present
      fun other member different found =>
        (sides_of_content_nil (others other member different found)).2
  rw [line, front, back]

/-- Replacing the worker leaves the others as empty as they were. -/
theorem others_empty_replaced {pool next : Pool Role Item} {index : Nat}
    {moved : Worker Role Item} (replaced : next.workers = pool.workers.set index moved)
    (others : OthersEmpty pool index) : OthersEmpty next index := by
  intro other member different found
  rw [replaced, List.getElem?_set_ne (Ne.symm different)] at found
  exact others other member different found

/-- After a step of a lone carrier every worker is the moved one, or an old one without
items. -/
theorem moved_or_empty {pool next : Pool Role Item} {index : Nat} {moved one : Worker Role Item}
    (replaced : next.workers = pool.workers.set index moved) (others : OthersEmpty pool index)
    (member : one ∈ next.workers) : one = moved ∨ (one ∈ pool.workers ∧ content one = []) := by
  obtain ⟨position, found⟩ := List.mem_iff_getElem?.mp member
  rw [replaced] at found
  rcases MemberUpdate.read_set_cases found with ⟨_, same⟩ | ⟨different, old⟩
  · exact .inl same
  · exact .inr ⟨List.mem_of_getElem? old, others position one different old⟩

/-- A move that only changes the worker's place in its loop. -/
def Quiet (shared after : List Item) (worker moved : Worker Role Item) : Prop :=
  after = shared ∧ content moved = content worker ∧ draining moved = draining worker ∧
    moved.role = worker.role

/-- A quiet step leaves the line as it is. -/
theorem quiet_line {pool next : Pool Role Item} {index : Nat} {worker moved : Worker Role Item}
    (present : pool.workers[index]? = some worker)
    (replaced : next.workers = pool.workers.set index moved)
    (quiet : Quiet pool.shared next.shared worker moved) : line next = line pool := by
  obtain ⟨sameShared, sameContent, sameLoop, _⟩ := quiet
  have front : next.workers.flatMap taken = pool.workers.flatMap taken := by
    rw [replaced, List.flatMap_def, List.flatMap_def,
      MemberUpdate.map_set_same taken pool.workers index worker moved present
        (by simp [taken, sameContent, sameLoop])]
  have back : next.workers.flatMap returning = pool.workers.flatMap returning := by
    rw [replaced, List.flatMap_def, List.flatMap_def,
      MemberUpdate.map_set_same returning pool.workers index worker moved present
        (by simp [returning, sameContent, sameLoop])]
  rw [line, line, front, back, sameShared]

/-- What a move of a lone carrier does to the items: the line keeps its order and
projection, what was settled for a role stays so, and what the worker has taken is
settled for its own role. -/
theorem move_line {image : Item → Value} {Settled : Role → Item → Prop}
    (settling : Settling task.transform image Settled)
    {shared after : List Item} {worker moved : Worker Role Item}
    (move : Move task shared worker after moved)
    (succeeds : Succeeds task.capacity shared worker) :
    (taken moved ++ after ++ returning moved).map image =
        (taken worker ++ shared ++ returning worker).map image ∧
      (∀ role, (∀ item ∈ taken worker ++ shared ++ returning worker, Settled role item) →
        ∀ item ∈ taken moved ++ after ++ returning moved, Settled role item) ∧
      ((∀ item ∈ taken worker, Settled worker.role item) →
        ∀ item ∈ taken moved, Settled worker.role item) := by
  cases move with
  | enterDrain | leaveDrain | enterRefill | exit | release | keep =>
    simp [taken, returning, draining, content]
  | take role held item =>
    refine ⟨?_, ?_, ?_⟩
    · simp [taken, returning, draining, content, settling.unchanged]
    · intro anyRole before
      have ofItem : Settled anyRole item := before item (by simp)
      have moving := settling.keeps anyRole role item ofItem
      simp only [taken, returning, draining, content, ↓reduceIte, List.append_nil,
        List.mem_append, List.mem_cons] at before ⊢
      rintro other ((inHeld | rfl | impossible) | inAfter)
      · exact before other (.inl inHeld)
      · exact moving
      · exact absurd impossible List.not_mem_nil
      · exact before other (.inr (.inr inAfter))
    · intro before
      simp only [taken, draining, content, ↓reduceIte, List.mem_append, List.mem_cons] at before ⊢
      rintro other (inHeld | rfl | impossible)
      · exact before other inHeld
      · exact settling.settles role item
      · exact absurd impossible List.not_mem_nil
  | takeBlank => exact absurd rfl succeeds
  | keepFull role held item shared full => exact absurd full succeeds
  | releaseBlank => exact absurd rfl succeeds
  | putBack => simp [taken, returning, draining, content]
  | putBackFull role held item shared full => exact absurd full succeeds

/-- A worker leaves its drain loop with everything it has taken, and the queue empty. -/
theorem move_leaves {shared after : List Item} {worker moved : Worker Role Item}
    (move : Move task shared worker after moved) (before : draining worker = true)
    (afterwards : draining moved = false) :
    taken moved ++ after ++ returning moved = taken worker := by
  cases move <;> simp_all [taken, returning, draining, content]

theorem move_role {shared after : List Item} {worker moved : Worker Role Item}
    (move : Move task shared worker after moved) : moved.role = worker.role := by
  cases move <;> rfl

/-- A worker that is about to remove has just seen an item. -/
theorem move_awaited {shared after : List Item} {worker moved : Worker Role Item}
    (move : Move task shared worker after moved) (waiting : moved.phase = .drainRemove) :
    after ≠ [] := by
  cases move <;> simp at waiting ⊢

section Invariant

variable {image : Item → Value} {Settled : Role → Item → Prop} {initial : List Item}
variable {pool next : Pool Role Item} {index : Nat} {worker moved : Worker Role Item}

/-- In an undisturbed step either the worker only changes its place in its loop, or it
is the only one that may carry items. -/
theorem InLine.quiet_or_alone (inLine : InLine task.capacity image Settled initial pool)
    (undisturbed : Undisturbed pool index) (present : pool.workers[index]? = some worker)
    (move : Move task pool.shared worker next.shared moved) :
    Quiet pool.shared next.shared worker moved ∨ OthersEmpty pool index := by
  have carrying := inLine.single index worker present
  have loaded := inLine.loaded worker (List.mem_of_getElem? present)
  have guarded := undisturbed worker present
  generalize pool.shared = shared, next.shared = after at move guarded
  cases move with
  | enterDrain | enterRefill | exit => exact .inl ⟨rfl, rfl, rfl, rfl⟩
  | leaveDrain => exact .inr (guarded (.inr ⟨rfl, rfl⟩))
  | take | takeBlank => exact .inr (guarded (.inl rfl))
  | keep | keepFull | release | putBack | putBackFull =>
    exact .inr (carrying (by simp [content]))
  | releaseBlank => exact absurd rfl (loaded rfl)

/-- The next call of a lone carrier succeeds. -/
theorem InLine.alone_succeeds (inLine : InLine task.capacity image Settled initial pool)
    (present : pool.workers[index]? = some worker) (others : OthersEmpty pool index) :
    Succeeds task.capacity pool.shared worker := by
  have member : worker ∈ pool.workers := List.mem_of_getElem? present
  have length : (line pool).length = initial.length := by
    simpa using congrArg List.length inLine.same
  have bounded := inLine.bounded
  have awaited := inLine.awaited worker member
  have loaded := inLine.loaded worker member
  rw [line_alone present others] at length awaited
  obtain ⟨role, held, phase⟩ := worker
  cases phase with
  | drainRemove =>
    obtain ⟨something, behind⟩ := awaited rfl
    intro empty
    have nothing : held = [] := by
      by_contra carrying
      exact behind carrying empty
    simp [taken, returning, draining, content, empty, nothing] at something
  | drainAdd item =>
    intro full
    simp only [taken, returning, draining, content, ↓reduceIte, List.length_append,
      List.length_singleton, List.length_nil] at length full
    omega
  | refillRemove => exact loaded rfl
  | refillAdd item =>
    intro full
    simp only [taken, returning, draining, content, Bool.false_eq_true, ↓reduceIte,
      List.length_append, List.length_cons, List.length_nil] at length
    omega
  | drainTest | refillTest | exited => trivial

/-- A quiet step preserves the invariant: every content and the queue are unchanged. -/
theorem InLine.quiet_step (inLine : InLine task.capacity image Settled initial pool)
    (present : pool.workers[index]? = some worker)
    (replaced : next.workers = pool.workers.set index moved)
    (move : Move task pool.shared worker next.shared moved)
    (quiet : Quiet pool.shared next.shared worker moved) :
    InLine task.capacity image Settled initial next := by
  have member : worker ∈ pool.workers := List.mem_of_getElem? present
  have sameLine : line next = line pool := quiet_line present replaced quiet
  obtain ⟨sameShared, sameContent, sameLoop, sameRole⟩ := quiet
  have contents : ∀ (other : Nat) (one : Worker Role Item), next.workers[other]? = some one →
      ∃ old, pool.workers[other]? = some old ∧ content one = content old := by
    intro other one found
    rw [replaced] at found
    rcases MemberUpdate.read_set_cases found with ⟨rfl, rfl⟩ | ⟨_, found⟩
    · exact ⟨worker, present, sameContent⟩
    · exact ⟨one, found, rfl⟩
  refine ⟨sameLine ▸ inLine.same, inLine.bounded, ?_, ?_, ?_, ?_, ?_, ?_⟩
  · rw [replaced, sameLine]
    apply MemberUpdate.forall_mem_set inLine.finished
    intro finished
    rw [sameRole]
    exact inLine.finished worker member (sameLoop ▸ finished)
  · rw [replaced]
    apply MemberUpdate.forall_mem_set inLine.processed
    have same : taken moved = taken worker := by simp [taken, sameContent, sameLoop]
    rw [same, sameRole]
    exact inLine.processed worker member
  · intro position one found carrying other another different elsewhere
    obtain ⟨old, before, same⟩ := contents position one found
    obtain ⟨otherOld, otherBefore, otherSame⟩ := contents other another elsewhere
    rw [otherSame]
    exact inLine.single position old before (same ▸ carrying) other otherOld different otherBefore
  · rw [replaced, sameLine, sameShared]
    apply MemberUpdate.forall_mem_set inLine.awaited
    intro waiting
    have seen : pool.shared ≠ [] := sameShared ▸ move_awaited move waiting
    exact ⟨by simp [line, seen], fun _ => seen⟩
  · rw [replaced]
    exact MemberUpdate.forall_mem_set inLine.loaded (move_loaded move)
  · rw [replaced]
    exact MemberUpdate.forall_mem_set inLine.spent (move_spent move)

/-- A step of a lone carrier preserves the invariant. -/
theorem InLine.alone_step (settling : Settling task.transform image Settled)
    (inLine : InLine task.capacity image Settled initial pool)
    (present : pool.workers[index]? = some worker)
    (replaced : next.workers = pool.workers.set index moved)
    (move : Move task pool.shared worker next.shared moved)
    (others : OthersEmpty pool index) :
    InLine task.capacity image Settled initial next := by
  have member : worker ∈ pool.workers := List.mem_of_getElem? present
  have inside : index < pool.workers.length := (List.getElem?_eq_some_iff.mp present).1
  have placed : next.workers[index]? = some moved := by
    rw [replaced]
    exact List.getElem?_set_self inside
  have othersNext : OthersEmpty next index := others_empty_replaced replaced others
  have lineBefore : line pool = taken worker ++ pool.shared ++ returning worker :=
    line_alone present others
  have lineAfter : line next = taken moved ++ next.shared ++ returning moved :=
    line_alone placed othersNext
  obtain ⟨images, settledStay, takenSettled⟩ :=
    move_line settling move (inLine.alone_succeeds present others)
  rw [← lineBefore, ← lineAfter] at images settledStay
  have sameImage : (line next).map image = initial.map image := images.trans inLine.same
  have sameLength : (line next).length = (line pool).length := by
    simpa using congrArg List.length images
  refine ⟨sameImage, inLine.bounded, ?_, ?_, ?_, ?_, ?_, ?_⟩
  · rw [replaced]
    apply MemberUpdate.forall_mem_set
    · intro one old finished
      exact settledStay one.role (inLine.finished one old finished)
    · intro finished
      rw [move_role move]
      cases before : draining worker with
      | false => exact settledStay worker.role (inLine.finished worker member before)
      | true =>
        -- The worker has just left its drain loop: the line is what it took.
        rw [lineAfter, move_leaves move before finished]
        exact inLine.processed worker member
  · intro one inNext item inTaken
    rcases moved_or_empty replaced others inNext with rfl | ⟨_, empty⟩
    · rw [move_role move]
      exact takenSettled (inLine.processed worker member) item inTaken
    · rw [(sides_of_content_nil empty).1] at inTaken
      exact absurd inTaken List.not_mem_nil
  · intro position one found carrying
    by_cases same : position = index
    · exact same ▸ othersNext
    · exact absurd (othersNext position one same found) carrying
  · intro one inNext waiting
    rcases moved_or_empty replaced others inNext with rfl | ⟨old, empty⟩
    · have seen : next.shared ≠ [] := move_awaited move waiting
      exact ⟨by simp [line, seen], fun _ => seen⟩
    · constructor
      · rw [← List.length_pos_iff_ne_nil, sameLength, List.length_pos_iff_ne_nil]
        exact (inLine.awaited one old waiting).1
      · intro carrying
        simp only [content, waiting] at empty
        exact absurd empty carrying
  · rw [replaced]
    exact MemberUpdate.forall_mem_set inLine.loaded (move_loaded move)
  · rw [replaced]
    exact MemberUpdate.forall_mem_set inLine.spent (move_spent move)

/-- One undisturbed step preserves the invariant. -/
theorem InLine.step (settling : Settling task.transform image Settled)
    (inLine : InLine task.capacity image Settled initial pool)
    (undisturbed : Undisturbed pool index)
    (stepped : DrainRefill.step task pool index = some next) :
    InLine task.capacity image Settled initial next := by
  obtain ⟨worker, moved, present, move, replaced⟩ := step_move stepped
  rcases inLine.quiet_or_alone undisturbed present move with quiet | others
  · exact inLine.quiet_step present replaced move quiet
  · exact inLine.alone_step settling present replaced move others

/-- Until all workers have exited, one of them can step without disturbing the others: the
one that carries items, or any if none does. -/
theorem InLine.advances (inLine : InLine capacity image Settled initial pool) :
    (∀ worker ∈ pool.workers, worker.phase = .exited) ∨
      ∃ (index : Nat) (worker : Worker Role Item), pool.workers[index]? = some worker ∧
        worker.phase ≠ .exited ∧ OthersEmpty pool index := by
  by_cases carried : ∃ (index : Nat) (worker : Worker Role Item),
      pool.workers[index]? = some worker ∧ content worker ≠ []
  · obtain ⟨index, worker, present, carrying⟩ := carried
    refine .inr ⟨index, worker, present, ?_, inLine.single index worker present carrying⟩
    intro exited
    apply carrying
    simp [content, exited, inLine.spent worker (List.mem_of_getElem? present) exited]
  · by_cases exited : ∀ worker ∈ pool.workers, worker.phase = .exited
    · exact .inl exited
    · simp only [not_forall] at exited
      obtain ⟨worker, member, goesOn⟩ := exited
      obtain ⟨index, present⟩ := List.mem_iff_getElem?.mp member
      refine .inr ⟨index, worker, present, goesOn, ?_⟩
      intro other another _ found
      by_contra carrying
      exact carried ⟨other, another, found, carrying⟩

/-- Workers that have not moved yet stand in line with the queue's own items. -/
theorem in_line_initially {capacity : Nat} (bounded : pool.shared.length ≤ capacity)
    (fresh : ∀ worker ∈ pool.workers, worker.held = [] ∧ worker.phase = .drainTest) :
    InLine capacity image Settled pool.shared pool := by
  have contents : ∀ worker ∈ pool.workers, content worker = [] := by
    intro worker member
    obtain ⟨empty, atTest⟩ := fresh worker member
    simp [content, atTest, empty]
  have front : pool.workers.flatMap taken = [] := List.flatMap_eq_nil_iff.mpr
    fun worker member => (sides_of_content_nil (contents worker member)).1
  have back : pool.workers.flatMap returning = [] := List.flatMap_eq_nil_iff.mpr
    fun worker member => (sides_of_content_nil (contents worker member)).2
  refine ⟨by simp [line, front, back], bounded, ?_, ?_, ?_, ?_, ?_, ?_⟩
  · intro worker member finished
    simp [draining, (fresh worker member).2] at finished
  · intro worker member item inTaken
    rw [(sides_of_content_nil (contents worker member)).1] at inTaken
    exact absurd inTaken List.not_mem_nil
  · intro index worker present carrying
    exact absurd (contents worker (List.mem_of_getElem? present)) carrying
  · intro worker member waiting
    simp [(fresh worker member).2] at waiting
  · intro worker member removing
    simp [(fresh worker member).2] at removing
  · intro worker member _
    exact (fresh worker member).1

/-- An undisturbed run that all workers have finished leaves the queue's items in their
order, with the same projection and settled for every role. -/
theorem undisturbed_run_settles (settling : Settling task.transform image Settled)
    {start final : Pool Role Item} {schedule : List Nat}
    (bounded : start.shared.length ≤ task.capacity)
    (fresh : ∀ worker ∈ start.workers, worker.held = [] ∧ worker.phase = .drainTest)
    (undisturbed : TransitionSystem.Meets (DrainRefill.step task) Undisturbed start schedule)
    (ran : TransitionSystem.run (DrainRefill.step task) start schedule = some final)
    (exited : ∀ worker ∈ final.workers, worker.phase = .exited) :
    final.shared.map image = start.shared.map image ∧
      ∀ worker ∈ final.workers, ∀ item ∈ final.shared, Settled worker.role item := by
  have inLine : InLine task.capacity image Settled start.shared final :=
    TransitionSystem.guarded_run_preserves (InLine task.capacity image Settled start.shared)
      (fun _ _ _ before guarded stepped => before.step settling guarded stepped)
      (in_line_initially bounded fresh) undisturbed ran
  have contents : ∀ worker ∈ final.workers, content worker = [] := by
    intro worker member
    simp [content, exited worker member, inLine.spent worker member (exited worker member)]
  have front : final.workers.flatMap taken = [] := List.flatMap_eq_nil_iff.mpr
    fun worker member => (sides_of_content_nil (contents worker member)).1
  have back : final.workers.flatMap returning = [] := List.flatMap_eq_nil_iff.mpr
    fun worker member => (sides_of_content_nil (contents worker member)).2
  have onlyQueue : line final = final.shared := by simp [line, front, back]
  refine ⟨onlyQueue ▸ inLine.same, ?_⟩
  intro worker member item queued
  have finished : draining worker = false := by simp [draining, exited worker member]
  exact inLine.finished worker member finished item (onlyQueue ▸ queued)

end Invariant

end DrainRefill
