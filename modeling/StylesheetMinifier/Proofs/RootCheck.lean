import StylesheetMinifier.Proofs.CommandReport
import StylesheetMinifier.Proofs.StepwiseWalk

/-!
# The check of the root

Whoever calls for the stylesheets below a root learns at once whether the root is refused,
from nothing but what `stat` tells of it (`examineRoot_eq_error_iff`).  The root is examined
again with the first advance, and by then the disk may be another one.  What keeps it from
being read then is no refusal of the call any more, but the error of a directory like any
other, and the walk ends with it (`Walk.listings_of_refused`).
-/

namespace StylesheetMinifier

open FileTree

/-! ## At the call -/

def Identity.isDirectory : Identity → Bool
  | .directory _ => true
  | .made _ => false

namespace Disk

/-- Whether a path leads to something that passes a test.  An error by which it leads to
nothing is an answer to that. -/
def examine (disk : Disk) (passes : Identity → Bool) (path : Path) : Except SystemError Bool :=
  match disk.stat path.octets with
  | .ok identity => .ok (passes identity)
  | .error error => if error.code ∈ missingCodes then .ok false else .error error

/-- Examine a root twice: first whether it is there at all, then whether it is a directory. -/
def examineRoot (disk : Disk) (root : Path) : Except RootError Unit :=
  match disk.examine (fun _ => true) root with
  | .error error => .error (.system error)
  | .ok false => .error (.missing root)
  | .ok true =>
      match disk.examine Identity.isDirectory root with
      | .error error => .error (.system error)
      | .ok false => .error (.notDirectory root)
      | .ok true => .ok ()

/-- Why a root is refused.  A fault of the call is met before the text of the path is looked
at, so a null octet counts where there is none. -/
inductive RefusesRoot (disk : Disk) (root : Path) : RootError → Prop
  | nullOctet (null : 0 ∈ root.octets) (noFault : disk.fault? .stat root.octets = none) :
      RefusesRoot disk root (.missing root)
  | missing {error : SystemError} (refused : disk.stat root.octets = .error error)
      (code : error.code ∈ [2, 9, 20, 40]) : RefusesRoot disk root (.missing root)
  | system {error : SystemError} (refused : disk.stat root.octets = .error error)
      (code : error.code ∉ [2, 9, 20, 40]) : RefusesRoot disk root (.system error)
  | notDirectory {birth : Birth} (known : disk.stat root.octets = .ok (.made birth)) :
      RefusesRoot disk root (.notDirectory root)

variable {disk : Disk} {root : Path} {text : List UInt8} {error : SystemError}

theorem code_notFound_mem (text : List UInt8) :
    (SystemError.ofErrno .notFound text).code ∈ missingCodes :=
  List.mem_cons_self

theorem stat_of_nullOctet (null : 0 ∈ text) (noFault : disk.fault? .stat text = none) :
    disk.stat text = .error (.ofErrno .notFound text) := by
  simp [stat, look, noFault, null]

theorem exists_stat_error_of_nullOctet (null : 0 ∈ text) :
    ∃ error, disk.stat text = .error error := by
  cases fault : disk.fault? .stat text with
  | none => exact ⟨_, stat_of_nullOctet null fault⟩
  | some error => exact ⟨error, by simp [stat, look, fault]⟩

theorem examineRoot_of_missing (refused : disk.stat root.octets = .error error)
    (code : error.code ∈ missingCodes) : disk.examineRoot root = .error (.missing root) := by
  simp only [examineRoot, examine, refused, if_pos code]

theorem examineRoot_of_system (refused : disk.stat root.octets = .error error)
    (code : error.code ∉ missingCodes) : disk.examineRoot root = .error (.system error) := by
  simp only [examineRoot, examine, refused, if_neg code]

theorem examineRoot_of_made {birth : Birth} (known : disk.stat root.octets = .ok (.made birth)) :
    disk.examineRoot root = .error (.notDirectory root) := by
  simp only [examineRoot, examine, known, Identity.isDirectory]

theorem examineRoot_of_directory {id : Nat} (known : disk.stat root.octets = .ok (.directory id)) :
    disk.examineRoot root = .ok () := by
  simp only [examineRoot, examine, known, Identity.isDirectory]

/-- The examinations refuse a root exactly as said. -/
theorem examineRoot_eq_error_iff {refusal : RootError} :
    disk.examineRoot root = .error refusal ↔ disk.RefusesRoot root refusal := by
  constructor
  · intro examined
    cases known : disk.stat root.octets with
    | error error =>
        by_cases code : error.code ∈ missingCodes
        · cases examined.symm.trans (examineRoot_of_missing known code)
          exact .missing known code
        · cases examined.symm.trans (examineRoot_of_system known code)
          exact .system known code
    | ok identity =>
        cases identity with
        | directory id => cases examined.symm.trans (examineRoot_of_directory known)
        | made birth =>
            cases examined.symm.trans (examineRoot_of_made known)
            exact .notDirectory known
  · intro refuses
    cases refuses with
    | nullOctet null noFault =>
        exact examineRoot_of_missing (stat_of_nullOctet null noFault) (code_notFound_mem _)
    | missing refused code => exact examineRoot_of_missing refused code
    | system refused code => exact examineRoot_of_system refused code
    | notDirectory known => exact examineRoot_of_made known

theorem exists_refusesRoot_iff : (∃ refusal, disk.RefusesRoot root refusal) ↔
    (∃ error, disk.stat root.octets = .error error) ∨
      (∃ birth, disk.stat root.octets = .ok (.made birth)) ∨ 0 ∈ root.octets := by
  constructor
  · rintro ⟨refusal, refuses⟩
    cases refuses with
    | nullOctet null _ => exact .inr (.inr null)
    | missing refused _ => exact .inl ⟨_, refused⟩
    | system refused _ => exact .inl ⟨_, refused⟩
    | notDirectory known => exact .inr (.inl ⟨_, known⟩)
  · have ofError (fails : ∃ error, disk.stat root.octets = .error error) :
        ∃ refusal, disk.RefusesRoot root refusal := by
      obtain ⟨error, refused⟩ := fails
      by_cases code : error.code ∈ [2, 9, 20, 40]
      · exact ⟨_, .missing refused code⟩
      · exact ⟨_, .system refused code⟩
    rintro (fails | ⟨birth, known⟩ | null)
    · exact ofError fails
    · exact ⟨_, .notDirectory known⟩
    · exact ofError (exists_stat_error_of_nullOctet null)

/-- Nothing but `stat` of the root is asked for. -/
theorem examineRoot_congr {other : Disk} (same : other.stat root.octets = disk.stat root.octets) :
    other.examineRoot root = disk.examineRoot root := by
  simp only [examineRoot, examine, same]

end Disk

/-- A walk is begun where both examinations let the root pass. -/
theorem Walk.begin?_eq_examineRoot (disk : Disk) (root : Path) (suffixes : Suffixes) :
    begin? disk root suffixes =
      (disk.examineRoot root).map fun _ => ⟨suffixes, [], [.enter root]⟩ := by
  unfold begin?
  cases looked : disk.look .stat root.octets with
  | error error =>
      have refused : disk.stat root.octets = .error error := by rw [Disk.stat, looked]
      by_cases code : error.code ∈ missingCodes
      · rw [Disk.examineRoot_of_missing refused code]
        exact if_pos code
      · rw [Disk.examineRoot_of_system refused code]
        exact if_neg code
  | ok node =>
      cases node with
      | directory place =>
          have known : disk.stat root.octets = .ok (.directory place.id) := by
            rw [Disk.stat, looked]
          rw [Disk.examineRoot_of_directory known]
          rfl
      | file slot birth content =>
          have known : disk.stat root.octets = .ok (.made birth) := by rw [Disk.stat, looked]
          rw [Disk.examineRoot_of_made known]
          rfl
      | pipe birth =>
          have known : disk.stat root.octets = .ok (.made birth) := by rw [Disk.stat, looked]
          rw [Disk.examineRoot_of_made known]
          rfl
      | absent slot =>
          have refused : disk.stat root.octets = .error (.ofErrno .notFound root.octets) := by
            rw [Disk.stat, looked]
          rw [Disk.examineRoot_of_missing refused (Disk.code_notFound_mem _)]
          rfl

theorem map_eq_error_iff {ε α β : Type} {result : Except ε α} {f : α → β} {error : ε} :
    result.map f = .error error ↔ result = .error error := by
  cases result <;> simp [Except.map]

theorem Walk.begin?_eq_error_iff {disk : Disk} {root : Path} {suffixes : Suffixes}
    {refusal : RootError} :
    begin? disk root suffixes = .error refusal ↔ disk.RefusesRoot root refusal := by
  rw [begin?_eq_examineRoot, map_eq_error_iff, Disk.examineRoot_eq_error_iff]

/-- A run is refused as its walk is. -/
theorem minifyDirectory_eq_error_iff {disk : Disk} {root : Path} {failFast : Bool}
    {refusal : RootError} :
    minifyDirectory disk root failFast = .error refusal ↔ disk.RefusesRoot root refusal := by
  rw [minifyDirectory, map_eq_error_iff, Walk.begin?_eq_error_iff]

/-- A command whose run is refused leaves the disk as it is. -/
theorem disk_minifyAndReport_of_refused {disk : Disk} {root : Path} {refusal : RootError}
    (refuses : disk.RefusesRoot root refusal) : (minifyAndReport disk root).disk = disk := by
  rw [minifyAndReport, minifyDirectory_eq_error_iff.mpr refuses]
  cases refusal <;> rfl

/-! ## At an advance -/

/-- Call for the stylesheets below a root on one disk, and advance on others, each as the disk
is then: what the advances bring, unless the call is refused. -/
def listStylesheets (disk : Disk) (root : Path) (suffixes : Suffixes) (policy : ErrorPolicy)
    (disks : List Disk) : Except RootError (List Listing) :=
  (Walk.begin? disk root suffixes).map fun walk => walk.listings policy disks

namespace Listing

/-- Every error that a part of a walk reports, warns of or is broken off by is one with which
the disk refuses a directory, and only who raises errors again breaks the walk off. -/
structure KeepsTo (policy : ErrorPolicy) (disk : Disk) (part : Listing) : Prop where
  reported : ∀ error ∈ part.errors, ∃ directory, disk.refusal? directory = some error
  warned : ∀ directory error, .unreadable directory error ∈ part.log →
    disk.refusal? directory = some error
  raised : ∀ error, part.brokenOff = some error →
    policy = .stop ∧ ∃ directory, disk.refusal? directory = some error

/-- What comes of a directory that is refused: a warning, or a report, which may break the
walk off. -/
def refused (policy : ErrorPolicy) (directory : Path) (error : SystemError) : Listing :=
  match policy with
  | .warn => ⟨[], [], [.unreadable directory error], none⟩
  | .collect => ⟨[], [error], [], none⟩
  | .stop => ⟨[], [error], [], some error⟩

theorem ofEvents_unreadable (policy : ErrorPolicy) (directory : Path) (error : SystemError) :
    ofEvents policy [.unreadable directory error] = refused policy directory error := by
  cases policy <;> rfl

end Listing

theorem Event.exists_of_error? {event : Event} {error : SystemError}
    (isError : event.error? = some error) : ∃ directory, event = .unreadable directory error := by
  cases event <;> cases isError
  exact ⟨_, rfl⟩

theorem Event.eq_of_record? {policy : ErrorPolicy} {event : Event} {directory : Path}
    {error : SystemError} (logged : event.record? policy = some (.unreadable directory error)) :
    event = .unreadable directory error := by
  cases event with
  | unreadable other otherError =>
      rw [record?] at logged
      split at logged
      · cases logged
        rfl
      · cases logged
  | _ => cases logged

theorem Listing.keepsTo_ofEvents (policy : ErrorPolicy) {disk : Disk} {events : List Event}
    (refused : ∀ directory error, .unreadable directory error ∈ events →
      disk.refusal? directory = some error) : (ofEvents policy events).KeepsTo policy disk where
  reported := by
    intro error member
    simp only [ofEvents] at member
    split at member
    · cases member
    · obtain ⟨event, present, isError⟩ := List.mem_filterMap.mp member
      obtain ⟨directory, rfl⟩ := Event.exists_of_error? isError
      exact ⟨directory, refused directory error present⟩
  warned := by
    intro directory error member
    obtain ⟨event, present, logged⟩ := List.mem_filterMap.mp member
    obtain rfl := Event.eq_of_record? logged
    exact refused directory error present
  raised := by
    intro error broken
    simp only [ofEvents] at broken
    split at broken
    · next stop =>
        obtain ⟨event, present, isError⟩ := List.exists_of_findSome?_eq_some broken
        obtain ⟨directory, rfl⟩ := Event.exists_of_error? isError
        exact ⟨stop, directory, refused directory error present⟩
    · cases broken

namespace Walk

variable {disk : Disk} {walk next : Walk} {root directory : Path} {error : SystemError}

theorem Steps.refusal?_eq (steps : Steps disk walk (some (.unreadable directory error)) next) :
    disk.refusal? directory = some error := by
  cases steps with
  | unknown refused => exact Disk.refusal?_of_stat refused
  | unlisted known _ refused => exact Disk.refusal?_of_list known refused

/-- What an advance reports of a directory is what the disk has to tell of it. -/
theorem refusal?_of_mem_advance (stops : Event → Bool)
    (reported : .unreadable directory error ∈ (walk.advance disk stops).1) :
    disk.refusal? directory = some error := by
  fun_induction advance disk stops walk with
  | case1 walk done => cases reported
  | case2 walk next stepped ih => exact ih reported
  | case3 walk event next stepped stop =>
      obtain rfl := List.mem_singleton.mp reported
      exact (steps_of_step stepped).refusal?_eq
  | case4 walk event next stepped goesOn later ih =>
      rcases List.mem_cons.mp reported with rfl | others
      · exact (steps_of_step stepped).refusal?_eq
      · exact ih others

theorem keepsTo_listings (policy : ErrorPolicy) (walk : Walk) (disks : List Disk) :
    List.Forall₂ (Listing.KeepsTo policy) disks (walk.listings policy disks) := by
  induction disks generalizing walk with
  | nil => exact .nil
  | cons disk disks ih =>
      refine .cons (Listing.keepsTo_ofEvents policy fun directory error reported => ?_) (ih _)
      exact refusal?_of_mem_advance _ reported

/-- A directory that is refused when a walk comes to it first. -/
theorem exists_step_of_refused (suffixes : Suffixes) (rest : List Task)
    (refused : disk.refusal? directory = some error) : ∃ entered,
    step disk ⟨suffixes, [], .enter directory :: rest⟩ =
      some (some (.unreadable directory error), ⟨suffixes, entered, rest⟩) := by
  unfold Disk.refusal? at refused
  cases known : disk.stat directory.octets with
  | error failure =>
      rw [known] at refused
      cases refused
      exact ⟨_, (Steps.unknown known).step_eq⟩
  | ok identity =>
      cases listed : disk.list directory.octets with
      | error failure =>
          simp only [known, listed] at refused
          cases refused
          exact ⟨_, (Steps.unlisted known List.not_mem_nil listed).step_eq⟩
      | ok entries => simp [known, listed] at refused

theorem next_of_refused (suffixes : Suffixes) (policy : ErrorPolicy)
    (refused : disk.refusal? root = some error) : ∃ left : Walk, left.tasks = [] ∧
    Walk.next disk policy ⟨suffixes, [], [.enter root]⟩ =
      (Listing.refused policy root error, left) := by
  obtain ⟨entered, stepped⟩ := exists_step_of_refused suffixes [] refused
  have advanced (stops : Event → Bool) :
      (⟨suffixes, [], [.enter root]⟩ : Walk).advance disk stops =
        ([.unreadable root error], ⟨suffixes, entered, []⟩) := by
    rw [advance_of_event stepped, advance_of_done rfl, ite_self]
  refine ⟨_, @settle_of_done ⟨suffixes, entered, []⟩ rfl policy [.unreadable root error], ?_⟩
  rw [Walk.next, advanced, Listing.ofEvents_unreadable]

/-- Of a root that is refused when the walk comes to it, the first advance tells the error,
and no other one brings anything. -/
theorem listings_of_refused (suffixes : Suffixes) (policy : ErrorPolicy) (disks : List Disk)
    (refused : disk.refusal? root = some error) :
    listings policy ⟨suffixes, [], [.enter root]⟩ (disk :: disks) =
      Listing.refused policy root error :: List.replicate disks.length Listing.nothing := by
  obtain ⟨left, done, advanced⟩ := next_of_refused suffixes policy refused
  rw [listings, advanced, listings_of_done done]

end Walk

/-- A run over a root that cannot be listed has one failed result. -/
theorem minifyDirectory_of_unlisted {disk : Disk} {root : Path} {id : Nat} {error : SystemError}
    (failFast : Bool) (known : disk.stat root.octets = .ok (.directory id))
    (refused : disk.list root.octets = .error error) :
    minifyDirectory disk root failFast = .ok (respond root disk (.unreadable root error)) := by
  have stepped := (@Walk.Steps.unlisted disk Suffixes.standard [] root [] _ _ known
    List.not_mem_nil refused).step_eq
  rw [minifyDirectory, Walk.begin?_eq_examineRoot, Disk.examineRoot_of_directory known]
  change Except.ok (runWalk root failFast disk _) = _
  rw [runWalk_of_event stepped, runWalk_of_done rfl, ite_eq_left_iff.mpr]
  intro _
  simp [Report.andThen, Report.nothing, respond]

/-! ## Before and after -/

theorem listStylesheets_eq_error_iff {disk : Disk} {root : Path} {suffixes : Suffixes}
    {policy : ErrorPolicy} {disks : List Disk} {refusal : RootError} :
    listStylesheets disk root suffixes policy disks = .error refusal ↔
      disk.RefusesRoot root refusal := by
  rw [listStylesheets, map_eq_error_iff, Walk.begin?_eq_error_iff]

theorem eq_listings_of_listStylesheets {disk : Disk} {root : Path} {suffixes : Suffixes}
    {policy : ErrorPolicy} {disks : List Disk} {parts : List Listing}
    (listed : listStylesheets disk root suffixes policy disks = .ok parts) :
    parts = Walk.listings policy ⟨suffixes, [], [.enter root]⟩ disks := by
  unfold listStylesheets at listed
  cases begun : Walk.begin? disk root suffixes with
  | error refusal =>
      rw [begun] at listed
      cases listed
  | ok walk =>
      obtain ⟨rfl, _⟩ := begin?_spec begun
      rw [begun] at listed
      exact (Except.ok.inj listed).symm

/-- A root is checked by the call for its stylesheets, from nothing but what `stat` tells of
it.  A run is refused by the same check, and then changes nothing.  Once the call has
succeeded, no advance is refused, however the disk has changed since; the errors of an advance
are those with which the disk refuses directories by then.  Where the root is such a directory,
the first advance tells its error and there is no path, and a run over a root that cannot be
listed has that error for its one result. -/
theorem listStylesheets_checksRoot (disk : Disk) (root : Path) (suffixes : Suffixes) :
    Walk.begin? disk root suffixes =
      (disk.examineRoot root).map (fun _ => ⟨suffixes, [], [.enter root]⟩) ∧
    ((∃ refusal, disk.RefusesRoot root refusal) ↔
      (∃ error, disk.stat root.octets = .error error) ∨
        (∃ birth, disk.stat root.octets = .ok (.made birth)) ∨ 0 ∈ root.octets) ∧
    (∀ other : Disk, other.stat root.octets = disk.stat root.octets →
      Walk.begin? other root suffixes = Walk.begin? disk root suffixes) ∧
    (∀ (failFast : Bool) (refusal : RootError),
      minifyDirectory disk root failFast = .error refusal ↔ disk.RefusesRoot root refusal) ∧
    (∀ refusal, disk.RefusesRoot root refusal → (minifyAndReport disk root).disk = disk) ∧
    (∀ (failFast : Bool) (id : Nat) (error : SystemError),
      disk.stat root.octets = .ok (.directory id) → disk.list root.octets = .error error →
        minifyDirectory disk root failFast = .ok (respond root disk (.unreadable root error))) ∧
    ∀ (policy : ErrorPolicy) (disks : List Disk),
      (∀ refusal, listStylesheets disk root suffixes policy disks = .error refusal ↔
        disk.RefusesRoot root refusal) ∧
      ∀ parts, listStylesheets disk root suffixes policy disks = .ok parts →
        List.Forall₂ (Listing.KeepsTo policy) disks parts ∧
        ∀ first rest error, disks = first :: rest → first.refusal? root = some error →
          parts = Listing.refused policy root error ::
            List.replicate rest.length Listing.nothing := by
  refine ⟨Walk.begin?_eq_examineRoot disk root suffixes, Disk.exists_refusesRoot_iff, ?_,
    fun _ _ => minifyDirectory_eq_error_iff, fun _ => disk_minifyAndReport_of_refused,
    fun failFast _ _ => minifyDirectory_of_unlisted failFast,
    fun policy disks => ⟨fun _ => listStylesheets_eq_error_iff, ?_⟩⟩
  · intro other same
    rw [Walk.begin?_eq_examineRoot, Walk.begin?_eq_examineRoot, Disk.examineRoot_congr same]
  · intro parts listed
    obtain rfl := eq_listings_of_listStylesheets listed
    refine ⟨Walk.keepsTo_listings policy _ disks, ?_⟩
    rintro first rest error rfl refused
    exact Walk.listings_of_refused suffixes policy rest refused

/-- The tree with several directories, at a time when its root cannot be found. -/
def goneDisk : Disk where
  tree := siteTree
  faults := [⟨.stat, herePath.octets, 2, [], true⟩]

/-- A root that is gone is missing at the call; one that goes after the call is reported by the
first advance, and nothing comes of it even when it is back. -/
theorem listStylesheets_checksRoot_gone :
    minifyDirectory goneDisk herePath false = .error (.missing herePath) ∧
      (minifyAndReport goneDisk herePath).disk = goneDisk ∧
      listStylesheets goneDisk herePath Suffixes.standard .collect [siteDisk] =
        .error (.missing herePath) ∧
      listStylesheets siteDisk herePath Suffixes.standard .collect [goneDisk, siteDisk] =
        .ok [⟨[], [⟨2, [], some [dot]⟩], [], none⟩, Listing.nothing] := by
  obtain ⟨_, _, _, run, unchanged, _, gone⟩ :=
    listStylesheets_checksRoot goneDisk herePath Suffixes.standard
  have refuses : goneDisk.RefusesRoot herePath (.missing herePath) :=
    @Disk.RefusesRoot.missing _ _ ⟨2, [], some [dot]⟩ rfl (by decide)
  refine ⟨(run false _).mpr refuses, unchanged _ refuses, ((gone .collect _).1 _).mpr refuses, ?_⟩
  obtain ⟨_, _, _, _, _, _, later⟩ :=
    listStylesheets_checksRoot siteDisk herePath Suffixes.standard
  have listed := congrArg (Except.map fun walk =>
    Walk.listings .collect walk [goneDisk, siteDisk]) begin?_siteDisk
  have parts := ((later .collect [goneDisk, siteDisk]).2 _ listed).2 goneDisk [siteDisk]
    ⟨2, [], some [dot]⟩ rfl rfl
  exact listed.trans (congrArg Except.ok parts)

end StylesheetMinifier
