import PolySchema.Diagnostic

namespace PolySchema.Reported

@[ext] theorem ext {first second : Reported α} (value : first.value = second.value)
    (diagnostics : first.diagnostics = second.diagnostics) : first = second := by
  cases first
  cases second
  simp_all

instance : LawfulMonad Reported :=
  LawfulMonad.mk' Reported
    (fun step => ext rfl (by simp))
    (fun _ _ => ext rfl (by simp))
    (fun _ _ _ => ext rfl (by simp))

@[simp] theorem collect_nil : collect ([] : List (Reported (Option α))) = pure [] := rfl

theorem collect_cons (step : Reported (Option α)) (steps : List (Reported (Option α))) :
    collect (step :: steps) = do
      let first ← step
      let rest ← collect steps
      return first.toList ++ rest := by
  apply Reported.ext
  · cases found : step.value <;> simp [collect, found]
  · simp [collect]

theorem collect_append (first second : List (Reported (Option α))) :
    collect (first ++ second) = do
      let front ← collect first
      let back ← collect second
      return front ++ back := by
  apply Reported.ext <;> simp [collect]

/-- Steps that give a value each and find nothing wrong are collected to these values. -/
theorem collect_map_pure {step : α → Reported (Option β)} {result : α → β} {items : List α}
    (each : ∀ item ∈ items, step item = pure (some (result item))) :
    collect (items.map step) = pure (items.map result) := by
  induction items with
  | nil => rfl
  | cons item rest ih =>
    rw [List.map_cons, collect_cons, each item (by simp),
      ih fun other member => each other (by simp [member])]
    simp

theorem mem_value_collect {step : α → Reported (Option β)} {items : List α} {value : β} :
    value ∈ (collect (items.map step)).value ↔ ∃ item ∈ items, (step item).value = some value := by
  simp [collect]

/-- The diagnostics that a condition selects. -/
def only (select : Diagnostic → Bool) (reported : Reported α) : List Diagnostic :=
  reported.diagnostics.filter select

section

variable {select : Diagnostic → Bool}

@[simp] theorem only_pure (value : α) : (pure value : Reported α).only select = [] := rfl

@[simp] theorem only_bind (step : Reported α) (next : α → Reported β) :
    (step >>= next).only select = step.only select ++ (next step.value).only select :=
  List.filter_append _ _

@[simp] theorem only_map (f : α → β) (step : Reported α) :
    (f <$> step).only select = step.only select := by
  rw [only, diagnostics_map, only]

theorem only_collect (steps : List (Reported (Option α))) :
    (collect steps).only select = steps.flatMap (only select) :=
  List.filter_flatMap

end

/-- Everything that is reported is valid. -/
def Each (valid : Diagnostic → Prop) (reported : Reported α) : Prop :=
  ∀ diagnostic ∈ reported.diagnostics, valid diagnostic

namespace Each

variable {valid weaker : Diagnostic → Prop}

theorem mono {reported : Reported α} (each : Each valid reported)
    (implied : ∀ diagnostic, valid diagnostic → weaker diagnostic) : Each weaker reported := by
  intro diagnostic member
  exact implied diagnostic (each diagnostic member)

theorem pure (value : α) : Each valid (pure value : Reported α) := by
  intro diagnostic member
  cases member

theorem report {kind : Diagnostic.Kind} {line : Nat} {context : List Char}
    (own : valid ⟨kind, some line, String.ofList context⟩) :
    Each valid (Reported.report kind line context) := by
  intro diagnostic member
  rwa [List.mem_singleton.mp member]

theorem bind {step : Reported α} {next : α → Reported β} (first : Each valid step)
    (second : Each valid (next step.value)) : Each valid (step >>= next) := by
  intro diagnostic member
  rw [diagnostics_bind, List.mem_append] at member
  rcases member with early | late
  · exact first diagnostic early
  · exact second diagnostic late

theorem map {step : Reported α} (f : α → β) (each : Each valid step) :
    Each valid (f <$> step) := by
  intro diagnostic member
  rw [diagnostics_map] at member
  exact each diagnostic member

theorem collect {step : α → Reported (Option β)} {items : List α}
    (each : ∀ item ∈ items, Each valid (step item)) :
    Each valid (Reported.collect (items.map step)) := by
  intro diagnostic member
  obtain ⟨reported, inside, own⟩ := List.mem_flatMap.mp member
  obtain ⟨item, present, rfl⟩ := List.mem_map.mp inside
  exact each item present diagnostic own

/-- What holds of everything that is reported can rule a selection out. -/
theorem only_eq_nil {reported : Reported α} {select : Diagnostic → Bool}
    (each : Each valid reported)
    (other : ∀ diagnostic, valid diagnostic → select diagnostic = false) :
    reported.only select = [] := by
  refine List.filter_eq_nil_iff.mpr fun diagnostic member => ?_
  rw [other diagnostic (each diagnostic member)]
  exact Bool.false_ne_true

end Each
end PolySchema.Reported
