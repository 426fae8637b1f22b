/-!
# Fields between separators

Lines of a text and components of a path are fields between separators.
Splitting is exact: joining the fields gives the list back
(`joinFields_splitFields`), and splitting what was joined gives the fields back
(`splitFields_joinFields`), so no other fields come to the same list
(`eq_splitFields_iff`).
-/

namespace StylesheetMinifier

variable {α : Type}

/-- Put an item before the first of some fields. -/
def extendFirst (item : α) : List (List α) → List (List α)
  | [] => [[item]]
  | field :: rest => (item :: field) :: rest

def splitFields [DecidableEq α] (separator : α) : List α → List (List α)
  | [] => [[]]
  | item :: rest =>
      if item = separator then [] :: splitFields separator rest
      else extendFirst item (splitFields separator rest)

def joinFields (separator : α) : List (List α) → List α
  | [] => []
  | [field] => field
  | field :: rest => field ++ separator :: joinFields separator rest

theorem extendFirst_ne_nil (item : α) (fields : List (List α)) :
    extendFirst item fields ≠ [] := by
  cases fields <;> simp [extendFirst]

theorem splitFields_ne_nil [DecidableEq α] (separator : α) (items : List α) :
    splitFields separator items ≠ [] := by
  cases items with
  | nil => simp [splitFields]
  | cons item rest =>
      unfold splitFields
      split
      · simp
      · exact extendFirst_ne_nil item _

theorem joinFields_cons (separator : α) (field : List α) {rest : List (List α)}
    (more : rest ≠ []) :
    joinFields separator (field :: rest) = field ++ separator :: joinFields separator rest := by
  cases rest with
  | nil => exact absurd rfl more
  | cons second others => rfl

theorem joinFields_extendFirst (separator item : α) (fields : List (List α)) :
    joinFields separator (extendFirst item fields) = item :: joinFields separator fields := by
  match fields with
  | [] => rfl
  | [field] => rfl
  | field :: second :: others => rfl

theorem joinFields_append {separator : α} {first second : List (List α)} (some : first ≠ [])
    (more : second ≠ []) : joinFields separator (first ++ second) =
      joinFields separator first ++ separator :: joinFields separator second := by
  induction first with
  | nil => exact absurd rfl some
  | cons field rest ih =>
      cases rest with
      | nil => exact joinFields_cons separator field more
      | cons next others =>
          have later := ih (List.cons_ne_nil next others)
          rw [List.cons_append, joinFields_cons separator field (by simp), later,
            joinFields_cons separator field (List.cons_ne_nil next others), List.append_assoc]
          rfl

theorem joinFields_append_singleton {separator : α} {fields : List (List α)} {last : List α}
    (some : fields ≠ []) :
    joinFields separator (fields ++ [last]) = joinFields separator fields ++ separator :: last :=
  joinFields_append some (List.cons_ne_nil last [])

/-- What holds of the separator and of the items of all fields holds of all that is joined. -/
theorem forall_mem_joinFields {separator : α} {fields : List (List α)} {P : α → Prop}
    (between : P separator) (inside : ∀ field ∈ fields, ∀ item ∈ field, P item) :
    ∀ item ∈ joinFields separator fields, P item := by
  induction fields with
  | nil =>
      intro item member
      cases member
  | cons field rest ih =>
      obtain ⟨here, later⟩ := List.forall_mem_cons.mp inside
      cases rest with
      | nil => exact here
      | cons second others =>
          rw [joinFields_cons separator field (List.cons_ne_nil second others)]
          exact List.forall_mem_append.mpr ⟨here, List.forall_mem_cons.mpr ⟨between, ih later⟩⟩

theorem joinFields_splitFields [DecidableEq α] (separator : α) (items : List α) :
    joinFields separator (splitFields separator items) = items := by
  induction items with
  | nil => rfl
  | cons item rest ih =>
      unfold splitFields
      split
      · next equal =>
          rw [joinFields_cons separator [] (splitFields_ne_nil separator rest), ih, equal]
          rfl
      · rw [joinFields_extendFirst, ih]

theorem length_splitFields [DecidableEq α] (separator : α) (items : List α) :
    (splitFields separator items).length = items.count separator + 1 := by
  induction items with
  | nil => rfl
  | cons item rest ih =>
      unfold splitFields
      split
      · next equal => rw [equal, List.length_cons, ih, List.count_cons_self]
      · next different =>
          obtain ⟨field, others, parts⟩ :=
            List.exists_cons_of_ne_nil (splitFields_ne_nil separator rest)
          rw [List.count_cons_of_ne different, ← ih, parts]
          rfl

theorem splitFields_append [DecidableEq α] {separator : α} {field : List α}
    (clear : separator ∉ field) (rest : List α) :
    splitFields separator (field ++ separator :: rest) =
      field :: splitFields separator rest := by
  induction field with
  | nil => simp [splitFields]
  | cons item others ih =>
      have different : item ≠ separator := fun equal => clear (equal ▸ List.mem_cons_self)
      have later := ih fun member => clear (List.mem_cons_of_mem item member)
      simp [splitFields, different, later, extendFirst]

theorem splitFields_of_not_mem [DecidableEq α] {separator : α} {field : List α}
    (clear : separator ∉ field) : splitFields separator field = [field] := by
  induction field with
  | nil => rfl
  | cons item others ih =>
      have different : item ≠ separator := fun equal => clear (equal ▸ List.mem_cons_self)
      have later := ih fun member => clear (List.mem_cons_of_mem item member)
      simp [splitFields, different, later, extendFirst]

theorem splitFields_joinFields [DecidableEq α] {separator : α} {fields : List (List α)}
    (some : fields ≠ []) (clear : ∀ field ∈ fields, separator ∉ field) :
    splitFields separator (joinFields separator fields) = fields := by
  induction fields with
  | nil => exact absurd rfl some
  | cons first rest ih =>
      have here := clear first List.mem_cons_self
      cases rest with
      | nil => exact splitFields_of_not_mem here
      | cons second others =>
          rw [joinFields_cons separator first (by simp), splitFields_append here,
            ih (by simp) fun field member => clear field (List.mem_cons_of_mem first member)]

/-- A field holds no separator. -/
theorem not_mem_of_mem_splitFields [DecidableEq α] {separator : α} {items field : List α}
    (member : field ∈ splitFields separator items) : separator ∉ field := by
  induction items generalizing field with
  | nil =>
      simp only [splitFields, List.mem_singleton] at member
      simp [member]
  | cons item rest ih =>
      unfold splitFields at member
      split at member
      · rcases List.mem_cons.mp member with rfl | later
        · simp
        · exact ih later
      · next different =>
          cases parts : splitFields separator rest with
          | nil => exact absurd parts (splitFields_ne_nil separator rest)
          | cons first others =>
              rw [parts] at member ih
              rcases List.mem_cons.mp member with rfl | later
              · have clear := ih List.mem_cons_self
                simp only [List.mem_cons, not_or]
                exact ⟨fun equal => different equal.symm, clear⟩
              · exact ih (List.mem_cons_of_mem first later)

/-- The fields are the only ones without separators that are joined to the list. -/
theorem eq_splitFields_iff [DecidableEq α] {separator : α} {items : List α}
    {fields : List (List α)} : fields = splitFields separator items ↔
      fields ≠ [] ∧ (∀ field ∈ fields, separator ∉ field) ∧ joinFields separator fields = items := by
  constructor
  · rintro rfl
    exact ⟨splitFields_ne_nil separator items, fun _ member => not_mem_of_mem_splitFields member,
      joinFields_splitFields separator items⟩
  · rintro ⟨some, clear, rfl⟩
    exact (splitFields_joinFields some clear).symm

/-- A separator ends one field and begins another, whatever is on both sides. -/
theorem splitFields_append_separator [DecidableEq α] (separator : α) (items rest : List α) :
    splitFields separator (items ++ separator :: rest) =
      splitFields separator items ++ splitFields separator rest := by
  have some := splitFields_ne_nil separator items
  have more := splitFields_ne_nil separator rest
  refine (eq_splitFields_iff.mpr ⟨List.append_ne_nil_of_left_ne_nil some _, ?_, ?_⟩).symm
  · exact List.forall_mem_append.mpr ⟨fun _ member => not_mem_of_mem_splitFields member,
      fun _ member => not_mem_of_mem_splitFields member⟩
  · rw [joinFields_append some more, joinFields_splitFields, joinFields_splitFields]

end StylesheetMinifier
