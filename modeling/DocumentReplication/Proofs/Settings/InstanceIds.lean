import DocumentReplication.Proofs.ChangeVector.Text
import DocumentReplication.Settings.Replication

/-!
Which names settings may tell a node to ignore, and which of them the entries of a change vector can
carry. An entry takes all that follows the first dash for its instance, colons too, which the settings
refuse. What the settings take can be in an entry unless it ends with a blank.
-/

namespace DocumentReplication

open Text

namespace ChangeVector

/-- Whether a text can be read that has an entry of an instance with this name. -/
def Carries (instanceId : String) : Prop :=
  ∃ text vector, parse text = .ok vector ∧ ∃ entry ∈ vector.entries, entry.instanceId = instanceId

/-- A vector with one entry. -/
def only (entry : VectorEntry) : ChangeVector := ⟨[entry], by simp⟩

/-- Whether reading would cut a name short where it ends a token. -/
def endsBlank (name : String) : Bool := name.toList.getLast?.any isBlank

theorem endsBlank_eq_false_iff {name : String} : name ≠ "" ∧ endsBlank name = false ↔
    ∃ front last, name.toList = front ++ [last] ∧ isBlank last = false := by
  rw [ne_eq, ← String.toList_eq_nil_iff]
  constructor
  · rintro ⟨nonempty, solid⟩
    cases found : name.toList.getLast? with
    | none => exact absurd (List.getLast?_eq_none_iff.mp found) nonempty
    | some last =>
        obtain ⟨front, same⟩ := List.getLast?_eq_some_iff.mp found
        exact ⟨front, last, same, by simpa [endsBlank, found] using solid⟩
  · rintro ⟨front, last, same, solid⟩
    simp [endsBlank, same, solid]

/-- Names that can be in a vector: those without a comma that do not end with a blank. -/
theorem carries_iff {instanceId : String} : Carries instanceId ↔
    instanceId ≠ "" ∧ ',' ∉ instanceId.toList ∧ endsBlank instanceId = false := by
  rw [and_left_comm, endsBlank_eq_false_iff]
  constructor
  · rintro ⟨text, vector, parsed, entry, member, rfl⟩
    have legible := legible_of_parse parsed entry member
    exact ⟨legible.instanceNoComma, legible.instanceEnds⟩
  · rintro ⟨noComma, ends⟩
    have legible : (only ⟨"A", 1, instanceId⟩).Legible := by
      intro entry member
      cases List.mem_singleton.mp member
      exact ⟨⟨'A', [], by simp, by decide⟩, by simp, by simp, by simp, ends, noComma⟩
    exact ⟨_, _, parse_text legible, _, List.mem_singleton_self _, rfl⟩

end ChangeVector

namespace ReplicationSettings

variable {settings : ReplicationSettings} {instanceId : String}

/-- A check that names one thing that may be wrong. -/
def refuse (wrong : Prop) [Decidable wrong] (fault : SettingsFault) : Except SettingsFault Unit :=
  if wrong then .error fault else .ok ()

theorem refuse_bind {wrong : Prop} [Decidable wrong] (fault : SettingsFault)
    (next : Unit → Except SettingsFault Unit) :
    (if wrong then throw fault >>= next else next ()) = refuse wrong fault >>= next := by
  unfold refuse
  split <;> rfl

/-- What is checked before the names to ignore. -/
def checkSizes (settings : ReplicationSettings) : Except SettingsFault Unit := do
  refuse (settings.nodeTag.isEmpty = true) .noNodeTag
  refuse (holdsAny [':', '-', ','] settings.nodeTag = true) (.nodeTagWithSeparator settings.nodeTag)
  refuse (settings.partitionCount = 0) .noPartitions
  refuse (settings.maxFrame < 1024) .framesTooSmall
  refuse (settings.maxItems = 0) .noItems
  refuse (settings.partitionQueueCapacity = 0) .noPartitionQueue
  refuse (settings.scheduler.maxBatch = 0) .noCommands
  refuse (settings.scheduler.queueCapacity = 0) .noCommandQueue
  refuse (settings.activeTimeoutMillis = 0) .neverActive
  refuse (settings.idleTimeoutMillis = 0) .neverIdle

def checkNames (settings : ReplicationSettings) : Except SettingsFault Unit := do
  if let some instanceId := settings.scheduler.ignoredIds.find? (!namesInstance ·) then
    throw (.notAnInstance instanceId)

theorem refused_of_find? {names : List String} {name : String}
    (found : names.find? (!namesInstance ·) = some name) :
    name ∈ names ∧ namesInstance name = false :=
  ⟨List.mem_of_find?_eq_some found, by simpa using List.find?_some found⟩

theorem checkNames_eq_ok_iff : settings.checkNames = .ok () ↔
    ∀ name ∈ settings.scheduler.ignoredIds, namesInstance name = true := by
  unfold checkNames
  cases found : settings.scheduler.ignoredIds.find? (!namesInstance ·) with
  | none => simpa using found
  | some name =>
      obtain ⟨known, wrong⟩ := refused_of_find? found
      simp only [throw, throwThe, MonadExceptOf.throw, reduceCtorEq, false_iff]
      exact fun all => Bool.false_ne_true (wrong.symm.trans (all name known))

theorem check_eq (settings : ReplicationSettings) :
    settings.check = settings.checkSizes >>= fun _ => settings.checkNames := by
  unfold check checkSizes
  simp -zeta -zetaHave only [refuse_bind]
  simp only [bind_assoc]
  rfl

theorem namesInstance_iff : namesInstance instanceId = true ↔
    instanceId ≠ "" ∧ ':' ∉ instanceId.toList ∧ ',' ∉ instanceId.toList := by
  simp only [namesInstance, holdsAny, Bool.and_eq_true, Bool.not_eq_eq_eq_not, Bool.not_true,
    String.isEmpty_eq_false_iff, ne_eq, List.any_eq_false, List.contains_eq_mem, List.mem_cons,
    List.not_mem_nil, or_false, Bool.decide_or, Bool.or_eq_true, decide_eq_true_eq, not_or,
    and_congr_right_iff]
  refine fun _ => ⟨fun apart => ?_, fun ⟨noColon, noComma⟩ c member => ?_⟩
  · exact ⟨fun colon => (apart _ colon).1 rfl, fun comma => (apart _ comma).2 rfl⟩
  · exact ⟨fun same => noColon (same ▸ member), fun same => noComma (same ▸ member)⟩

/-- The same settings with one name less to ignore. -/
def sparing (instanceId : String) (settings : ReplicationSettings) : ReplicationSettings :=
  { settings with scheduler := { settings.scheduler with
      ignoredIds := settings.scheduler.ignoredIds.filter (· ≠ instanceId) } }

/-- Where nothing else is wrong, it is the name that the check is about. -/
theorem check_of_sparing (member : instanceId ∈ settings.scheduler.ignoredIds)
    (otherwise : (settings.sparing instanceId).check = .ok ()) :
    settings.check =
      if namesInstance instanceId then .ok () else .error (.notAnInstance instanceId) := by
  rw [check_eq, Except.bind_eq_ok_iff] at otherwise
  obtain ⟨_, sizes, names⟩ := otherwise
  rw [check_eq, show settings.checkSizes = .ok () from sizes, Except.ok_bind]
  rw [checkNames_eq_ok_iff] at names
  have others : ∀ name ∈ settings.scheduler.ignoredIds, name ≠ instanceId →
      namesInstance name = true := fun name known other =>
    names name (List.mem_filter.mpr ⟨known, decide_eq_true other⟩)
  split
  · rename_i good
    refine checkNames_eq_ok_iff.mpr fun name known => ?_
    by_cases same : name = instanceId
    · rwa [same]
    · exact others name known same
  · rename_i bad
    cases found : settings.scheduler.ignoredIds.find? (!namesInstance ·) with
    | none =>
        exact absurd (by simpa using List.find?_eq_none.mp found instanceId member) bad
    | some name =>
        obtain ⟨known, wrong⟩ := refused_of_find? found
        obtain rfl : name = instanceId := Decidable.byContradiction fun other =>
          Bool.false_ne_true (wrong.symm.trans (others name known other))
        simp only [checkNames, found]
        rfl

/-- Where nothing else is wrong with some settings, they may tell to ignore just those names without a
colon that can be in a vector, among the names that do not end with a blank. -/
theorem check_iff_carries (member : instanceId ∈ settings.scheduler.ignoredIds)
    (otherwise : (settings.sparing instanceId).check = .ok ())
    (whole : ChangeVector.endsBlank instanceId = false) :
    settings.check = .ok () ↔ ChangeVector.Carries instanceId ∧ ':' ∉ instanceId.toList := by
  have named : settings.check = .ok () ↔ namesInstance instanceId = true := by
    rw [check_of_sparing member otherwise]
    split <;> simp [*]
  rw [named, namesInstance_iff, ChangeVector.carries_iff]
  constructor
  · exact fun ⟨nonempty, noColon, noComma⟩ => ⟨⟨nonempty, noComma, whole⟩, noColon⟩
  · exact fun ⟨⟨nonempty, noComma, _⟩, noColon⟩ => ⟨nonempty, noColon, noComma⟩

def ignoring (instanceIds : List String) : ReplicationSettings :=
  { standard with scheduler := { SchedulerSettings.standard with ignoredIds := instanceIds } }

theorem check_iff_carries_retired :
    "dbOld" ∈ (ignoring ["dbOld", "dbOlder"]).scheduler.ignoredIds ∧
      ((ignoring ["dbOld", "dbOlder"]).sparing "dbOld").check = .ok () ∧
      ChangeVector.endsBlank "dbOld" = false ∧
      ((ignoring ["dbOld", "dbOlder"]).check = .ok () ↔
        ChangeVector.Carries "dbOld" ∧ ':' ∉ "dbOld".toList) :=
  ⟨by decide, by decide +kernel, by decide +kernel,
    check_iff_carries (by decide) (by decide +kernel) (by decide +kernel)⟩

/-- An entry may have a colon in the name of its instance, but no settings may tell to ignore it. -/
theorem check_misses_colon :
    ¬ ∀ (settings : ReplicationSettings) (instanceId : String),
      instanceId ∈ settings.scheduler.ignoredIds → (settings.sparing instanceId).check = .ok () →
      (settings.check = .ok () ↔ ChangeVector.Carries instanceId) := by
  intro agree
  have carried : ChangeVector.Carries "db:1" :=
    ⟨"A:1-db:1", .only ⟨"A", 1, "db:1"⟩, by decide +kernel, _, List.mem_singleton_self _, rfl⟩
  have accepted := (agree (ignoring ["db:1"]) "db:1" (by decide) (by decide +kernel)).mpr carried
  have refused : (ignoring ["db:1"]).check = .error (.notAnInstance "db:1") := by decide +kernel
  rw [refused] at accepted
  contradiction

end ReplicationSettings

end DocumentReplication
