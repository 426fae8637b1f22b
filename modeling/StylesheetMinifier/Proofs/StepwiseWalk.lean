import StylesheetMinifier.Proofs.GuardedWalk
import StylesheetMinifier.Proofs.RecursiveWalk
import StylesheetMinifier.Proofs.WalkExactness

/-!
# Walking step by step

Of a walk that is advanced path by path, each advance brings the part of the whole walk up to
the next path, and the last one all that is left (`Walk.finish_eq_andThen`).  A walk owns its
tasks and the directories that it has entered, so it comes to the same when others are opened
and advanced in between (`answersTo_serve`).  Where an error breaks the walk off, it has done
what the one that collects its errors did up to the first of them
(`Walk.cutAtError_traverse`), and no task is left of it.
-/

namespace StylesheetMinifier

/-! ## Listings one after the other -/

theorem Event.breaksOff_stop_iff {event : Event} :
    event.breaksOff .stop = true ↔ ∃ directory error, event = .unreadable directory error := by
  cases event <;> simp [breaksOff, error?]

theorem Event.error?_of_not_breaksOff {event : Event} (goesOn : event.breaksOff .stop = false) :
    event.error? = none := by
  cases event <;> simp_all [breaksOff, error?]

namespace Listing

def nothing : Listing where
  paths := []
  errors := []
  log := []
  brokenOff := none

def andThen (first second : Listing) : Listing where
  paths := first.paths ++ second.paths
  errors := first.errors ++ second.errors
  log := first.log ++ second.log
  brokenOff := first.brokenOff.or second.brokenOff

/-- What some parts of a walk bring together. -/
def joined (parts : List Listing) : Listing :=
  parts.foldr andThen nothing

/-- What successive advances bring is what the whole walk brings: a path each as long as there
are any, and the error that breaks the walk off when the first path is missing.  One advance
more than there are paths brings all else. -/
structure BringsInTurn (whole : Listing) (parts : List Listing) : Prop where
  paths : ∀ (index : Nat) (part : Listing), parts[index]? = some part →
    part.paths = whole.paths[index]?.toList
  brokenOff : ∀ (index : Nat) (part : Listing), parts[index]? = some part →
    part.brokenOff = if index = whole.paths.length then whole.brokenOff else none
  all : whole.paths.length < parts.length → joined parts = whole

variable {policy : ErrorPolicy} {events : List Event} {part whole : Listing}
  {parts : List Listing}

theorem andThen_nothing (listing : Listing) : listing.andThen nothing = listing := by
  simp [andThen, nothing]

theorem joined_replicate_nothing (count : Nat) :
    joined (List.replicate count nothing) = nothing := by
  induction count with
  | zero => rfl
  | succ count ih => exact (congrArg nothing.andThen ih).trans (andThen_nothing _)

theorem eq_nothing {count index : Nat} {listing : Listing}
    (found : (List.replicate count nothing)[index]? = some listing) : listing = nothing :=
  List.eq_of_mem_replicate (List.mem_of_getElem? found)

theorem ofEvents_nil (policy : ErrorPolicy) : ofEvents policy [] = nothing := by
  simp [ofEvents, nothing]

theorem ofEvents_append (policy : ErrorPolicy) (events others : List Event) :
    ofEvents policy (events ++ others) =
      (ofEvents policy events).andThen (ofEvents policy others) := by
  cases policy <;> simp [ofEvents, andThen, List.filterMap_append, List.findSome?_append]

/-- Without an error it does not matter what becomes of errors. -/
theorem ofEvents_of_calm (calm : ∀ event ∈ events, event.error? = none) (policy : ErrorPolicy) :
    ofEvents policy events =
      ⟨events.filterMap Event.path?, [], events.filterMap (Event.record? .collect), none⟩ := by
  have noErrors : events.filterMap Event.error? = [] := List.filterMap_eq_nil_iff.mpr calm
  have noFirst : events.findSome? Event.error? = none := List.findSome?_eq_none_iff.mpr calm
  have sameLog : events.filterMap (Event.record? policy) =
      events.filterMap (Event.record? .collect) := by
    refine List.filterMap_congr fun event member => ?_
    cases event with
    | unreadable directory error => cases calm _ member
    | _ => rfl
  rw [ofEvents, noErrors, noFirst, sameLog, ite_self, ite_self]

theorem bringsInTurn_nil (whole : Listing) : whole.BringsInTurn [] where
  paths := by simp
  brokenOff := by simp
  all := by simp

/-- An advance that brings a path comes before the others. -/
theorem BringsInTurn.cons {path : Path} (paths : part.paths = [path])
    (goesOn : part.brokenOff = none) (inTurn : whole.BringsInTurn parts) :
    (part.andThen whole).BringsInTurn (part :: parts) where
  paths := by
    intro index other found
    cases index with
    | zero =>
        cases found
        simp [andThen, paths]
    | succ index =>
        rw [inTurn.paths index other found]
        simp [andThen, paths]
  brokenOff := by
    intro index other found
    cases index with
    | zero =>
        cases found
        simp [andThen, paths, goesOn]
    | succ index =>
        rw [inTurn.brokenOff index other found]
        simp [andThen, paths, goesOn]
  all := by
    intro enough
    have later : whole.paths.length < parts.length := by
      simpa [andThen, paths, Nat.add_comm] using enough
    exact congrArg part.andThen (inTurn.all later)

/-- An advance that brings no path brings all the rest. -/
theorem bringsInTurn_last (paths : part.paths = []) (count : Nat) :
    part.BringsInTurn (part :: List.replicate count nothing) where
  paths := by
    intro index other found
    cases index with
    | zero =>
        cases found
        simp [paths]
    | succ index =>
        have later : other = nothing := eq_nothing found
        rw [later]
        simp [paths, nothing]
  brokenOff := by
    intro index other found
    cases index with
    | zero =>
        cases found
        simp [paths]
    | succ index =>
        have later : other = nothing := eq_nothing found
        rw [later]
        simp [paths, nothing]
  all := by
    intro _
    exact (congrArg part.andThen (joined_replicate_nothing count)).trans (andThen_nothing part)

end Listing

namespace Walk

variable {disk : Disk} {policy : ErrorPolicy} {walk : Walk}

/-! ## Where an advance ends -/

/-- An advance ends with the first event that stops it, or with the walk. -/
theorem advance_ends (disk : Disk) (stops : Event → Bool) (walk : Walk) :
    ((walk.advance disk stops).2.tasks = [] ∧
        ∀ event ∈ (walk.advance disk stops).1, stops event = false) ∨
      ∃ before last, (walk.advance disk stops).1 = before ++ [last] ∧ stops last = true ∧
        ∀ event ∈ before, stops event = false := by
  fun_induction advance disk stops walk with
  | case1 walk done => exact .inl ⟨tasks_of_done done, List.forall_mem_nil _⟩
  | case2 walk next stepped ih => exact ih
  | case3 walk event next stepped stop =>
      exact .inr ⟨[], event, rfl, stop, List.forall_mem_nil _⟩
  | case4 walk event next stepped goesOn later ih =>
      have here := Bool.eq_false_iff.mpr goesOn
      rcases ih with ⟨done, quiet⟩ | ⟨before, last, events, stop, quiet⟩
      · exact .inl ⟨done, List.forall_mem_cons.mpr ⟨here, quiet⟩⟩
      · exact .inr ⟨event :: before, last, congrArg (event :: ·) events, stop,
          List.forall_mem_cons.mpr ⟨here, quiet⟩⟩

/-- A walk that is stopped less often goes on from where it would have been stopped. -/
theorem advance_further {first second : Event → Bool}
    (weaker : ∀ event, second event = true → first event = true) (disk : Disk) (walk : Walk) :
    walk.advance disk second =
      if (walk.advance disk first).1.any second then walk.advance disk first
      else
        ((walk.advance disk first).1 ++ ((walk.advance disk first).2.advance disk second).1,
          ((walk.advance disk first).2.advance disk second).2) := by
  fun_induction advance disk first walk with
  | case1 walk done => rfl
  | case2 walk next stepped ih => rw [advance_of_silent stepped, ih]
  | case3 walk event next stepped stop =>
      rw [advance_of_event stepped]
      simp
  | case4 walk event next stepped goesOn later ih =>
      have here : second event = false := by
        rw [Bool.eq_false_iff]
        exact fun stop => goesOn (weaker event stop)
      rw [advance_of_event stepped, here, if_neg Bool.false_ne_true, ih]
      simp only [List.any_cons, here, Bool.false_or]
      split <;> rfl

/-! ## Walks without tasks -/

theorem step_of_done (done : walk.tasks = []) (disk : Disk) : walk.step disk = none := by
  rw [step, done]

theorem settle_of_done (done : walk.tasks = []) (policy : ErrorPolicy) (events : List Event) :
    (walk.settle policy events).tasks = [] := by
  unfold settle
  split
  · rfl
  · exact done

/-- Nothing is left of a walk without tasks, whatever the disk is then. -/
theorem next_of_done (done : walk.tasks = []) (disk : Disk) (policy : ErrorPolicy) :
    walk.next disk policy = (Listing.nothing, walk) := by
  rw [next, advance_of_done (step_of_done done disk), Listing.ofEvents_nil]
  rfl

theorem finish_of_done (done : walk.tasks = []) (disk : Disk) (policy : ErrorPolicy) :
    walk.finish disk policy = (Listing.nothing, walk) := by
  rw [finish, advance_of_done (step_of_done done disk), Listing.ofEvents_nil]
  rfl

theorem listings_of_done (done : walk.tasks = []) (policy : ErrorPolicy) (disks : List Disk) :
    walk.listings policy disks = List.replicate disks.length Listing.nothing := by
  induction disks with
  | nil => rfl
  | cons disk disks ih =>
      rw [listings, next_of_done done, ih, List.length_cons, List.replicate_succ]

theorem afterAdvances_of_done (done : walk.tasks = []) (policy : ErrorPolicy) (disks : List Disk) :
    walk.afterAdvances policy disks = walk := by
  induction disks with
  | nil => rfl
  | cons disk disks ih => rw [afterAdvances, next_of_done done, ih]

/-! ## Advances of one walk -/

theorem length_listings (policy : ErrorPolicy) (walk : Walk) (disks : List Disk) :
    (walk.listings policy disks).length = disks.length := by
  induction disks generalizing walk with
  | nil => rfl
  | cons disk disks ih => exact congrArg Nat.succ (ih _)

/-- An advance brings one path and is not broken off, or it brings none and is the last. -/
theorem next_cases (disk : Disk) (policy : ErrorPolicy) (walk : Walk) :
    (∃ path, (walk.next disk policy).1.paths = [path] ∧
        (walk.next disk policy).1.brokenOff = none) ∨
      (walk.next disk policy).1.paths = [] ∧ (walk.next disk policy).2.tasks = [] := by
  have noPaths {events : List Event}
      (quiet : ∀ event ∈ events, (event.path?.isSome || event.breaksOff policy) = false) :
      events.filterMap Event.path? = [] := by
    refine List.filterMap_eq_nil_iff.mpr fun event member => ?_
    simpa using (Bool.or_eq_false_iff.mp (quiet event member)).1
  rcases advance_ends disk (fun event => event.path?.isSome || event.breaksOff policy) walk with
    ⟨done, quiet⟩ | ⟨before, last, events, stop, quiet⟩
  · exact .inr ⟨noPaths quiet, settle_of_done done policy _⟩
  · cases last with
    | stylesheet path =>
        refine .inl ⟨path, ?_, ?_⟩
        · rw [next, events]
          simp [Listing.ofEvents, noPaths quiet, Event.path?]
        · rw [next, events]
          simp only [Listing.ofEvents]
          split
          · next stop =>
              refine List.findSome?_eq_none_iff.mpr fun event member => ?_
              rcases List.mem_append.mp member with earlier | now
              · subst stop
                exact Event.error?_of_not_breaksOff
                  (Bool.or_eq_false_iff.mp (quiet event earlier)).2
              · rw [List.mem_singleton.mp now, Event.error?]
          · rfl
    | unreadable directory error =>
        refine .inr ⟨?_, ?_⟩
        · rw [next, events]
          simp [Listing.ofEvents, noPaths quiet, Event.path?]
        · rw [next, events, settle, if_pos]
          · rfl
          · simpa [Event.path?] using .inr stop
    | linkPassed link => simp [Event.path?, Event.breaksOff, Event.error?] at stop
    | revisited directory => simp [Event.path?, Event.breaksOff, Event.error?] at stop

/-- A walk to its end is an advance, and what is left of the walk then to its end. -/
theorem finish_eq_andThen (disk : Disk) (policy : ErrorPolicy) (walk : Walk) :
    (walk.finish disk policy).1 =
      (walk.next disk policy).1.andThen ((walk.next disk policy).2.finish disk policy).1 := by
  have weaker (event : Event) (breaks : event.breaksOff policy = true) :
      (event.path?.isSome || event.breaksOff policy) = true := by
    rw [breaks, Bool.or_true]
  by_cases broken : (walk.advance disk fun event => event.path?.isSome ||
      event.breaksOff policy).1.any (Event.breaksOff policy) = true
  · have done : (walk.next disk policy).2.tasks = [] := by
      rw [next, settle, if_pos broken]
      rfl
    rw [finish_of_done done, Listing.andThen_nothing, finish, advance_further weaker,
      if_pos broken]
    rfl
  · have left : (walk.next disk policy).2 = (walk.advance disk fun event =>
        event.path?.isSome || event.breaksOff policy).2 := by
      rw [next, settle, if_neg broken]
    rw [left, finish, advance_further weaker, if_neg broken]
    exact Listing.ofEvents_append _ _ _

theorem bringsInTurn_listings (disk : Disk) (policy : ErrorPolicy) (walk : Walk) (count : Nat) :
    (walk.finish disk policy).1.BringsInTurn
      (walk.listings policy (List.replicate count disk)) := by
  induction count generalizing walk with
  | zero => exact Listing.bringsInTurn_nil _
  | succ count ih =>
      rw [finish_eq_andThen, List.replicate_succ, listings]
      rcases next_cases disk policy walk with ⟨path, paths, goesOn⟩ | ⟨paths, done⟩
      · exact (ih _).cons paths goesOn
      · rw [finish_of_done done, listings_of_done done, List.length_replicate,
          Listing.andThen_nothing]
        exact Listing.bringsInTurn_last paths count

/-- One advance more than there are paths leaves no task. -/
theorem afterAdvances_done (disk : Disk) (policy : ErrorPolicy) (walk : Walk) {count : Nat}
    (enough : (walk.finish disk policy).1.paths.length < count) :
    (walk.afterAdvances policy (List.replicate count disk)).tasks = [] := by
  induction count generalizing walk with
  | zero => cases enough
  | succ count ih =>
      rw [List.replicate_succ, afterAdvances]
      rcases next_cases disk policy walk with ⟨path, paths, _⟩ | ⟨_, done⟩
      · refine ih _ ?_
        rw [finish_eq_andThen, Listing.andThen, paths, List.length_append,
          List.length_singleton] at enough
        omega
      · rw [afterAdvances_of_done done, done]

end Walk

/-! ## Several walks -/

/-- A walk that has been opened, with what is to become of directories that cannot be read. -/
structure OpenWalk where
  policy : ErrorPolicy
  walk : Walk

/-- Somebody begins a walk, or advances one of those that are open. -/
inductive WalkCall where
  | begin (root : Path) (suffixes : Suffixes) (policy : ErrorPolicy)
  | advance (number : Nat)
deriving DecidableEq

/-- Answer one call: what an advance brings, with the number of its walk, and the walks that
are open then. -/
def serveOne (disk : Disk) (walks : List OpenWalk) :
    WalkCall → List (Nat × Listing) × List OpenWalk
  | .begin root suffixes policy =>
      match Walk.begin? disk root suffixes with
      | .error _ => ([], walks)
      | .ok walk => ([], walks ++ [⟨policy, walk⟩])
  | .advance number =>
      match walks[number]? with
      | none => ([], walks)
      | some ⟨policy, walk⟩ =>
          ([(number, (walk.next disk policy).1)],
            walks.set number ⟨policy, (walk.next disk policy).2⟩)

/-- Answer calls in turn, on a disk that does not change. -/
def serve (disk : Disk) : List OpenWalk → List WalkCall → List (Nat × Listing) × List OpenWalk
  | walks, [] => ([], walks)
  | walks, call :: calls =>
      let first := serveOne disk walks call
      let later := serve disk first.2 calls
      (first.1 ++ later.1, later.2)

/-- What the advances of one walk have brought. -/
def answersTo (number : Nat) (answers : List (Nat × Listing)) : List Listing :=
  (answers.filter fun answer => answer.1 = number).map Prod.snd

section Serving

variable {disk : Disk} {policy : ErrorPolicy} {walk : Walk} {walks : List OpenWalk} {number : Nat}

theorem serveOne_advance (opened : walks[number]? = some ⟨policy, walk⟩) :
    answersTo number (serveOne disk walks (.advance number)).1 = [(walk.next disk policy).1] ∧
      (serveOne disk walks (.advance number)).2[number]? =
        some ⟨policy, (walk.next disk policy).2⟩ := by
  have inside : number < walks.length := (List.getElem?_eq_some_iff.mp opened).1
  rw [serveOne, opened]
  exact ⟨by simp [answersTo], List.getElem?_set_self inside⟩

/-- A call that is about another walk leaves a walk alone. -/
theorem serveOne_other (opened : walks[number]? = some ⟨policy, walk⟩) {call : WalkCall}
    (other : call ≠ .advance number) :
    answersTo number (serveOne disk walks call).1 = [] ∧
      (serveOne disk walks call).2[number]? = some ⟨policy, walk⟩ := by
  have inside : number < walks.length := (List.getElem?_eq_some_iff.mp opened).1
  cases call with
  | begin root suffixes otherPolicy =>
      simp only [serveOne]
      split
      · exact ⟨rfl, opened⟩
      · exact ⟨rfl, (List.getElem?_append_left inside).trans opened⟩
  | advance further =>
      have different : further ≠ number := fun same => other (congrArg WalkCall.advance same)
      simp only [serveOne]
      split
      · exact ⟨rfl, opened⟩
      · exact ⟨by simp [answersTo, different], (List.getElem?_set_ne different).trans opened⟩

/-- Whatever else is asked for, a walk answers to its own advances, one after the other. -/
theorem answersTo_serve (opened : walks[number]? = some ⟨policy, walk⟩) (calls : List WalkCall) :
    answersTo number (serve disk walks calls).1 =
        walk.listings policy (List.replicate (calls.count (.advance number)) disk) ∧
      (serve disk walks calls).2[number]? =
        some ⟨policy, walk.afterAdvances policy
          (List.replicate (calls.count (.advance number)) disk)⟩ := by
  induction calls generalizing walks walk with
  | nil => exact ⟨rfl, opened⟩
  | cons call calls ih =>
      have append (first later : List (Nat × Listing)) :
          answersTo number (first ++ later) = answersTo number first ++ answersTo number later := by
        rw [answersTo, List.filter_append, List.map_append]
        rfl
      rw [serve, append]
      by_cases own : call = .advance number
      · subst own
        obtain ⟨answers, stillOpen⟩ := @serveOne_advance disk _ _ _ _ opened
        obtain ⟨others, left⟩ := ih stillOpen
        rw [List.count_cons_self, List.replicate_succ, answers, others]
        exact ⟨rfl, left⟩
      · obtain ⟨answers, stillOpen⟩ := @serveOne_other disk _ _ _ _ opened _ own
        obtain ⟨others, left⟩ := ih stillOpen
        rw [List.count_cons_of_ne own, answers, others]
        exact ⟨rfl, left⟩

end Serving

/-! ## Breaking off -/

/-- A call that an error breaks off beside one that collects its errors: without an error they
bring the same, and otherwise the former has done what the latter did before its first error. -/
inductive Traversal.CutAtError {before : List Identity} (stopped collected : Traversal before) :
    Prop
  | calm (noError : ∀ event ∈ collected.events, event.error? = none)
      (same : stopped.listing .stop = collected.listing .collect)
  | cut {earlier later : List Event} {directory : Path} {error : SystemError}
      (events : collected.events = earlier ++ .unreadable directory error :: later)
      (first : ∀ event ∈ earlier, event.error? = none)
      (brings : stopped.listing .stop = ⟨earlier.filterMap Event.path?, [error],
        earlier.filterMap (Event.record? .collect), some error⟩)

namespace Walk

theorem cutAtError_traverse (disk : Disk) (suffixes : Suffixes) (root : Path) :
    (disk.traverse suffixes .stop root).CutAtError (disk.traverse suffixes .collect root) := by
  have never (event : Event) : event.breaksOff .collect = false := rfl
  have further := congrArg Prod.fst (@advance_further (Event.breaksOff .stop)
    (Event.breaksOff .collect) (by simp [never]) disk ⟨suffixes, [], [.enter root]⟩)
  rw [if_neg (by simp [never]), advance_traverse, advance_traverse] at further
  rcases advance_ends disk (Event.breaksOff .stop) ⟨suffixes, [], [.enter root]⟩ with
    ⟨done, quiet⟩ | ⟨earlier, last, events, stop, quiet⟩
  · rw [advance_of_done (step_of_done done disk), List.append_nil] at further
    rw [advance_traverse] at quiet
    have calm : ∀ event ∈ (disk.traverse suffixes .stop root).events, event.error? = none :=
      fun event member => Event.error?_of_not_breaksOff (quiet event member)
    refine .calm (further ▸ calm) ?_
    rw [listing_traverse, listing_traverse, further, Listing.ofEvents_of_calm calm,
      Listing.ofEvents_of_calm calm]
  · obtain ⟨directory, error, rfl⟩ := Event.breaksOff_stop_iff.mp stop
    rw [advance_traverse] at events
    have calm : ∀ event ∈ earlier, event.error? = none :=
      fun event member => Event.error?_of_not_breaksOff (quiet event member)
    rw [events, List.append_assoc] at further
    refine .cut further calm ?_
    rw [listing_traverse, events, Listing.ofEvents_append, Listing.ofEvents_of_calm calm]
    simp [Listing.andThen, Listing.ofEvents, Event.path?, Event.error?, Event.record?]

/-- However many other walks are begun and advanced in between on a disk that does not change,
the advances of a walk bring in turn what the recursive walk brings, which a walk to its end
brings at once.  One advance more than there are paths leaves no step on any disk, also where
an error has broken the walk off.  Then it has been the first error, and the walk has done
what the one that collects the errors did before. -/
theorem serve_bringsInTurn {disk : Disk} {root : Path} {suffixes : Suffixes} {walk : Walk}
    (begun : begin? disk root suffixes = .ok walk) {policy : ErrorPolicy} {walks : List OpenWalk}
    {number : Nat} (opened : walks[number]? = some ⟨policy, walk⟩) (calls : List WalkCall) :
    (walk.finish disk policy).1 = (disk.traverse suffixes policy root).listing policy ∧
      (answersTo number (serve disk walks calls).1).length = calls.count (.advance number) ∧
      ((disk.traverse suffixes policy root).listing policy).BringsInTurn
        (answersTo number (serve disk walks calls).1) ∧
      (((disk.traverse suffixes policy root).listing policy).paths.length <
          calls.count (.advance number) →
        ∃ left, (serve disk walks calls).2[number]? = some ⟨policy, left⟩ ∧
          ∀ later : Disk, left.step later = none ∧
            left.next later policy = (Listing.nothing, left)) ∧
      (disk.traverse suffixes .stop root).CutAtError (disk.traverse suffixes .collect root) := by
  obtain ⟨rfl, -⟩ := begin?_spec begun
  have whole := finish_traverse disk suffixes policy root
  obtain ⟨answers, left⟩ := @answersTo_serve disk _ _ _ _ opened calls
  refine ⟨whole, ?_, ?_, ?_, cutAtError_traverse disk suffixes root⟩
  · rw [answers, length_listings, List.length_replicate]
  · rw [answers, ← whole]
    exact bringsInTurn_listings disk policy _ _
  · intro enough
    rw [← whole] at enough
    have done := afterAdvances_done disk policy _ enough
    exact ⟨_, left, fun later => ⟨step_of_done done later, next_of_done done later policy⟩⟩

/-! ## A stylesheet, and then an error -/

theorem finish_guardedDisk :
    (finish guardedDisk .stop ⟨Suffixes.standard, [], [.enter herePath]⟩).1 =
      ⟨[herePath.child singleName.toComponent], [⟨13, [], none⟩], [], some ⟨13, [], none⟩⟩ := by
  rw [finish, advance_of_silent step_guardedDisk, advance_of_event rfl, advance_of_event rfl]
  rfl

/-- The first advance brings the stylesheet, the second is broken off and the third brings
nothing, while two other walks of the same root are in between. -/
theorem serve_bringsInTurn_guarded : ∃ first second third,
    answersTo 1 (serve guardedDisk
      [⟨.warn, ⟨Suffixes.standard, [], [.enter herePath]⟩⟩,
        ⟨.stop, ⟨Suffixes.standard, [], [.enter herePath]⟩⟩]
      [.advance 1, .begin herePath Suffixes.standard .collect, .advance 2, .advance 1, .advance 0,
        .advance 2, .advance 1]).1 = [first, second, third] ∧
      first.paths = [herePath.child singleName.toComponent] ∧ first.brokenOff = none ∧
      second.paths = [] ∧ second.brokenOff = some ⟨13, [], none⟩ ∧
      third.paths = [] ∧ third.brokenOff = none ∧
      Listing.joined [first, second, third] = ⟨[herePath.child singleName.toComponent],
        [⟨13, [], none⟩], [], some ⟨13, [], none⟩⟩ := by
  obtain ⟨whole, count, inTurn, -, -⟩ := @serve_bringsInTurn guardedDisk herePath
    Suffixes.standard ⟨Suffixes.standard, [], [.enter herePath]⟩ rfl .stop
    [⟨.warn, ⟨Suffixes.standard, [], [.enter herePath]⟩⟩,
      ⟨.stop, ⟨Suffixes.standard, [], [.enter herePath]⟩⟩] 1 rfl
    [.advance 1, .begin herePath Suffixes.standard .collect, .advance 2, .advance 1, .advance 0,
      .advance 2, .advance 1]
  rw [← whole, finish_guardedDisk] at inTurn
  obtain ⟨first, second, third, answers⟩ := List.length_eq_three.mp count
  rw [answers] at inTurn ⊢
  exact ⟨first, second, third, rfl, inTurn.paths 0 first rfl, inTurn.brokenOff 0 first rfl,
    inTurn.paths 1 second rfl, inTurn.brokenOff 1 second rfl, inTurn.paths 2 third rfl,
    inTurn.brokenOff 2 third rfl, inTurn.all (show 1 < 3 by decide)⟩

end Walk

end StylesheetMinifier
