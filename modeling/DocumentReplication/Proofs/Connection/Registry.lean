import DocumentReplication.Connection.Registry
import DocumentReplication.Proofs.Work

/-!
A registry together with the registrations it gave out. A registration outlives its entry: once
replaced it may still be touched and is released later, in any order with new registrations. The
events of the past say who holds what and what was last heard of it; one invariant relates them to
the entries of the registry and is kept by each action, whichever comes next.
-/

namespace DocumentReplication

namespace Registry

variable {registry next : Registry} {now : Elapsed} {source : String} {registration : Registration}

/-- The registry with one more registration, in the place of the one its source had. -/
def admitting (registry : Registry) (now : Elapsed) (source : String) : Registry :=
  { registry with
    nextNumber := registry.nextNumber + 1
    heard := registry.heard.insert registry.nextNumber now
    active := registry.active.insert source registry.nextNumber
    cancelled := registry.cancelled ++ (registry.active.get? source).toList }

theorem register_eq_error_iff {fault : Fault} :
    registry.register now source = .error fault ↔
      ∃ number, registry.active.get? source = some number ∧
        (registry.idle now number).micros < registry.activeTimeout.micros ∧
        fault = .rejected (.sourceActive source (registry.idle now number)) := by
  simp only [register, predecessor]
  cases found : registry.active.get? source with
  | none => simp
  | some number =>
      by_cases lively : (registry.idle now number).micros < registry.activeTimeout.micros
      · simp [lively, eq_comm]
      · simp [lively]

theorem register_of_ok (done : registry.register now source = .ok (registration, next)) :
    registration = ⟨registry.nextNumber, source⟩ ∧ next = registry.admitting now source := by
  simp only [register, predecessor] at done
  simp only [admitting]
  cases found : registry.active.get? source with
  | none =>
      rw [found] at done
      cases done
      exact ⟨rfl, rfl⟩
  | some number =>
      rw [found] at done
      by_cases lively : (registry.idle now number).micros < registry.activeTimeout.micros
      · simp [lively] at done
      · simp only [if_neg lively, Except.ok_bind] at done
        cases done
        exact ⟨rfl, rfl⟩

theorem get?_release_eq_some_iff {number : Nat} :
    (registry.release registration).active.get? source = some number ↔
      registry.active.get? source = some number ∧ ⟨number, source⟩ ≠ registration := by
  simp only [release]
  by_cases entered : registry.active.get? registration.source = some registration.number
  · rw [if_pos entered, Dictionary.get?_erase]
    by_cases same : registration.source = source
    · subst same
      simp only [if_true, reduceCtorEq, false_iff, not_and, Decidable.not_not]
      intro found
      rw [entered] at found
      cases found
      rfl
    · have other : (⟨number, source⟩ : Registration) ≠ registration :=
        fun equal => same (equal ▸ rfl)
      simp [same, other]
  · rw [if_neg entered]
    refine ⟨fun found => ⟨found, ?_⟩, And.left⟩
    rintro rfl
    exact entered found

end Registry

inductive RegistryAction where
  | register (source : String)
  | touch (registration : Registration)
  | release (registration : Registration)
  | elapse (span : Elapsed)
deriving DecidableEq, Repr

def RegistryAction.source? : RegistryAction → Option String
  | register source => some source
  | touch registration | release registration => some registration.source
  | elapse _ => none

inductive RegistryEvent where
  | registered (registration : Registration) (moment : Elapsed)
  | touched (registration : Registration) (moment : Elapsed)
  | released (registration : Registration)
deriving DecidableEq, Repr

namespace RegistryEvent

/-- The registrations given out so far. -/
def registrations : List RegistryEvent → List Registration
  | [] => []
  | registered registration _ :: earlier => registration :: registrations earlier
  | touched .. :: earlier | released _ :: earlier => registrations earlier

/-- The registrations given back so far. -/
def returned : List RegistryEvent → List Registration
  | [] => []
  | released registration :: earlier => registration :: returned earlier
  | registered .. :: earlier | touched .. :: earlier => returned earlier

def lastHeard? (number : Nat) : List RegistryEvent → Option Elapsed
  | [] => none
  | registered registration moment :: earlier | touched registration moment :: earlier =>
    if registration.number = number then some moment else lastHeard? number earlier
  | released _ :: earlier => lastHeard? number earlier

end RegistryEvent

open RegistryEvent (registrations returned lastHeard?)

/-- A registry, the time, and what happened so far, the latest event first. -/
structure RegistryTrace where
  registry : Registry
  now : Elapsed
  events : List RegistryEvent
deriving Repr

namespace RegistryTrace

def start (activeTimeout now : Elapsed) : RegistryTrace :=
  ⟨.create activeTimeout, now, []⟩

/-- Somebody has the registration and did not give it back. -/
def Holds (trace : RegistryTrace) (registration : Registration) : Prop :=
  registration ∈ registrations trace.events ∧ registration ∉ returned trace.events

instance (trace : RegistryTrace) (registration : Registration) :
    Decidable (trace.Holds registration) :=
  inferInstanceAs (Decidable (_ ∧ _))

def Live (trace : RegistryTrace) (registration : Registration) : Prop :=
  trace.Holds registration ∧ registration.number ∉ trace.registry.cancelled

def slot? (trace : RegistryTrace) (source : String) : Option (Nat × Option Elapsed) :=
  (trace.registry.active.get? source).map fun number => (number, trace.registry.heard.get? number)

/-- A refused registration changes nothing. Nobody can touch what was never given out, and what was
given back cannot be given back again. -/
def act (trace : RegistryTrace) : RegistryAction → RegistryTrace
  | .register source =>
    match trace.registry.register trace.now source with
    | .ok (registration, registry) =>
      ⟨registry, trace.now, .registered registration trace.now :: trace.events⟩
    | .error _ => trace
  | .touch registration =>
    if registration ∈ registrations trace.events then
      ⟨trace.registry.touch trace.now registration, trace.now,
        .touched registration trace.now :: trace.events⟩
    else trace
  | .release registration =>
    if trace.Holds registration then
      ⟨trace.registry.release registration, trace.now, .released registration :: trace.events⟩
    else trace
  | .elapse span => { trace with now := ⟨trace.now.micros + span.micros⟩ }

def admitting (trace : RegistryTrace) (source : String) : RegistryTrace :=
  ⟨trace.registry.admitting trace.now source, trace.now,
    .registered ⟨trace.registry.nextNumber, source⟩ trace.now :: trace.events⟩

def run (trace : RegistryTrace) (actions : List RegistryAction) : RegistryTrace :=
  actions.foldl act trace

/-- What relates the registrations given out to the entries of the registry. -/
structure Sound (trace : RegistryTrace) (activeTimeout : Elapsed) : Prop where
  timeout : trace.registry.activeTimeout = activeTimeout
  numbered : ∀ registration ∈ registrations trace.events,
    registration.number < trace.registry.nextNumber
  apart : ∀ first ∈ registrations trace.events, ∀ last ∈ registrations trace.events,
    first.number = last.number → first = last
  registered : ∀ registration ∈ returned trace.events, registration ∈ registrations trace.events
  cancelled : ∀ number ∈ trace.registry.cancelled, number < trace.registry.nextNumber
  live_iff : ∀ registration, trace.Live registration ↔
    trace.registry.active.get? registration.source = some registration.number
  heard : ∀ registration, trace.Live registration → ∃ moment,
    trace.registry.heard.get? registration.number = some moment ∧
      lastHeard? registration.number trace.events = some moment ∧
      moment.micros ≤ trace.now.micros

section

variable {trace : RegistryTrace} {activeTimeout : Elapsed} {registration other : Registration}
  {source : String}

theorem Live.registered (live : trace.Live registration) :
    registration ∈ registrations trace.events :=
  live.1.1

theorem act_register_of_ok {registry : Registry}
    (done : trace.registry.register trace.now source = .ok (registration, registry)) :
    registration = ⟨trace.registry.nextNumber, source⟩ ∧
      trace.act (.register source) = trace.admitting source := by
  obtain ⟨rfl, rfl⟩ := Registry.register_of_ok done
  simp only [act, done, admitting, true_and]

theorem act_register_of_error {fault : Fault}
    (refused : trace.registry.register trace.now source = .error fault) :
    trace.act (.register source) = trace := by
  simp only [act, refused]

theorem act_register (trace : RegistryTrace) (source : String) :
    trace.act (.register source) = trace ∨
      trace.act (.register source) = trace.admitting source := by
  cases done : trace.registry.register trace.now source with
  | error fault => exact .inl (act_register_of_error done)
  | ok outcome =>
      obtain ⟨registration, registry⟩ := outcome
      exact .inr (act_register_of_ok done).2

theorem start_sound (activeTimeout now : Elapsed) : (start activeTimeout now).Sound activeTimeout where
  timeout := rfl
  numbered := nofun
  apart := nofun
  registered := nofun
  cancelled := nofun
  live_iff registration := by simp [start, Live, Holds, registrations, Registry.create]
  heard registration live := nomatch live.registered

namespace Sound

theorem entry_live (sound : trace.Sound activeTimeout) {number : Nat}
    (found : trace.registry.active.get? source = some number) : trace.Live ⟨number, source⟩ :=
  (sound.live_iff ⟨number, source⟩).mpr found

theorem fresh (sound : trace.Sound activeTimeout) :
    ⟨trace.registry.nextNumber, source⟩ ∉ registrations trace.events := by
  intro member
  have below := sound.numbered _ member
  exact Nat.lt_irrefl _ below

/-- Of the registrations given out before, a newcomer leaves live exactly those of other sources. -/
theorem live_admitting_iff (sound : trace.Sound activeTimeout)
    (member : registration ∈ registrations trace.events) :
    (trace.admitting source).Live registration ↔
      trace.Live registration ∧ registration.source ≠ source := by
  have known : registration ∈ registrations (trace.admitting source).events :=
    List.mem_cons_of_mem _ member
  simp only [Live, Holds, known, member, true_and]
  simp only [admitting, returned, Registry.admitting, List.mem_append, Option.mem_toList, not_or,
    and_assoc]
  refine and_congr_right fun held => and_congr_right fun kept => ?_
  have live : trace.Live registration := ⟨⟨member, held⟩, kept⟩
  constructor
  · intro staying same
    exact staying (same ▸ (sound.live_iff registration).mp live)
  · intro different replaced
    have equal := sound.apart _ member _ (sound.entry_live replaced).registered rfl
    exact different (equal ▸ rfl)

theorem cancelled_admitting_lt (sound : trace.Sound activeTimeout) {number : Nat}
    (member : number ∈ (trace.registry.admitting trace.now source).cancelled) :
    number < trace.registry.nextNumber := by
  obtain earlier | replaced := List.mem_append.mp member
  · exact sound.cancelled number earlier
  · have found := Option.mem_toList.mp replaced
    exact sound.numbered _ (sound.entry_live found).registered

theorem live_newcomer (sound : trace.Sound activeTimeout) (source : String) :
    (trace.admitting source).Live ⟨trace.registry.nextNumber, source⟩ := by
  refine ⟨⟨List.mem_cons_self, fun returned => ?_⟩, fun cancelled => ?_⟩
  · exact sound.fresh (sound.registered _ returned)
  · exact Nat.lt_irrefl _ (sound.cancelled_admitting_lt cancelled)

theorem live_admitting_iff_of_ne (sound : trace.Sound activeTimeout)
    (older : registration ≠ ⟨trace.registry.nextNumber, source⟩) :
    (trace.admitting source).Live registration ↔
      trace.Live registration ∧ registration.source ≠ source := by
  constructor
  · intro live
    have member := (List.mem_cons.mp live.registered).resolve_left older
    exact (sound.live_admitting_iff member).mp live
  · intro kept
    exact (sound.live_admitting_iff kept.1.registered).mpr kept

theorem get?_admitting_of_ne (older : registration ≠ ⟨trace.registry.nextNumber, source⟩) :
    (trace.admitting source).registry.active.get? registration.source = some registration.number ↔
      trace.registry.active.get? registration.source = some registration.number ∧
        registration.source ≠ source := by
  simp only [RegistryTrace.admitting, Registry.admitting, Dictionary.get?_insert]
  by_cases same : source = registration.source
  · have other : trace.registry.nextNumber ≠ registration.number := by
      intro equal
      exact older (by rw [equal, same])
    simp [same, other]
  · simp [same, Ne.symm same]

theorem admitting (sound : trace.Sound activeTimeout) (source : String) :
    (trace.admitting source).Sound activeTimeout where
  timeout := sound.timeout
  numbered := by
    intro registration member
    obtain rfl | member := List.mem_cons.mp member
    · exact Nat.lt_succ_self _
    · exact Nat.lt_succ_of_lt (sound.numbered registration member)
  apart := by
    intro first firstMember last lastMember same
    obtain rfl | firstMember := List.mem_cons.mp firstMember
    · obtain rfl | lastMember := List.mem_cons.mp lastMember
      · rfl
      · exact absurd same (Nat.ne_of_gt (sound.numbered last lastMember))
    · obtain rfl | lastMember := List.mem_cons.mp lastMember
      · exact absurd same (Nat.ne_of_lt (sound.numbered first firstMember))
      · exact sound.apart first firstMember last lastMember same
  registered := by
    intro registration member
    exact List.mem_cons_of_mem _ (sound.registered registration member)
  cancelled := by
    intro number member
    exact Nat.lt_succ_of_lt (sound.cancelled_admitting_lt member)
  live_iff := by
    intro registration
    by_cases newcomer : registration = ⟨trace.registry.nextNumber, source⟩
    · rw [newcomer]
      exact iff_of_true (sound.live_newcomer source) (Dictionary.get?_insert_self ..)
    · rw [sound.live_admitting_iff_of_ne newcomer, sound.live_iff registration,
        get?_admitting_of_ne newcomer]
  heard := by
    intro registration live
    obtain rfl | member := List.mem_cons.mp live.registered
    · exact ⟨trace.now, by simp [RegistryTrace.admitting, Registry.admitting],
        by simp [RegistryTrace.admitting, lastHeard?], Nat.le_refl _⟩
    · have other : trace.registry.nextNumber ≠ registration.number :=
        Nat.ne_of_gt (sound.numbered registration member)
      have before := ((sound.live_admitting_iff member).mp live).1
      simpa [RegistryTrace.admitting, Registry.admitting, Dictionary.get?_insert, lastHeard?,
        other] using sound.heard registration before

theorem touching (sound : trace.Sound activeTimeout) (registration : Registration) :
    Sound ⟨trace.registry.touch trace.now registration, trace.now,
      .touched registration trace.now :: trace.events⟩ activeTimeout where
  timeout := sound.timeout
  numbered := sound.numbered
  apart := sound.apart
  registered := sound.registered
  cancelled := sound.cancelled
  live_iff := sound.live_iff
  heard := by
    intro other live
    by_cases same : registration.number = other.number
    · exact ⟨trace.now, by simp [Registry.touch, same], by simp [lastHeard?, same], Nat.le_refl _⟩
    · simpa [Registry.touch, Dictionary.get?_insert, lastHeard?, same] using sound.heard other live

theorem live_releasing_iff :
    Live ⟨trace.registry.release registration, trace.now, .released registration :: trace.events⟩
        other ↔ trace.Live other ∧ other ≠ registration := by
  simp only [Live, Holds, registrations, returned, Registry.release, List.mem_cons, not_or]
  constructor
  · rintro ⟨⟨member, different, kept⟩, uncancelled⟩
    exact ⟨⟨⟨member, kept⟩, uncancelled⟩, different⟩
  · rintro ⟨⟨⟨member, kept⟩, uncancelled⟩, different⟩
    exact ⟨⟨member, different, kept⟩, uncancelled⟩

theorem releasing (sound : trace.Sound activeTimeout) (held : trace.Holds registration) :
    Sound ⟨trace.registry.release registration, trace.now,
      .released registration :: trace.events⟩ activeTimeout where
  timeout := sound.timeout
  numbered := sound.numbered
  apart := sound.apart
  registered := by
    intro other member
    obtain rfl | member := List.mem_cons.mp member
    · exact held.1
    · exact sound.registered other member
  cancelled := sound.cancelled
  live_iff := by
    intro other
    rw [live_releasing_iff, sound.live_iff other]
    exact (Registry.get?_release_eq_some_iff).symm
  heard := by
    intro other live
    obtain ⟨before, different⟩ := live_releasing_iff.mp live
    have apart : registration.number ≠ other.number :=
      fun same => different (sound.apart _ before.registered _ held.1 same.symm)
    simpa [Registry.release, Dictionary.get?_erase, lastHeard?, apart] using
      sound.heard other before

theorem elapsing (sound : trace.Sound activeTimeout) (span : Elapsed) :
    Sound { trace with now := ⟨trace.now.micros + span.micros⟩ } activeTimeout where
  timeout := sound.timeout
  numbered := sound.numbered
  apart := sound.apart
  registered := sound.registered
  cancelled := sound.cancelled
  live_iff := sound.live_iff
  heard := by
    intro registration live
    obtain ⟨moment, found, last, past⟩ := sound.heard registration live
    exact ⟨moment, found, last, Nat.le_add_right_of_le past⟩

theorem act (sound : trace.Sound activeTimeout) (action : RegistryAction) :
    (trace.act action).Sound activeTimeout := by
  cases action with
  | register source =>
      obtain kept | admitted := trace.act_register source
      · exact kept.symm ▸ sound
      · exact admitted.symm ▸ sound.admitting source
  | touch registration =>
      simp only [RegistryTrace.act]
      split
      · exact sound.touching registration
      · exact sound
  | release registration =>
      simp only [RegistryTrace.act]
      split
      case isTrue held => exact sound.releasing held
      case isFalse => exact sound
  | elapse span => exact sound.elapsing span

theorem run {actions : List RegistryAction} (sound : trace.Sound activeTimeout) :
    (trace.run actions).Sound activeTimeout := by
  induction actions generalizing trace with
  | nil => exact sound
  | cons action rest ih => exact ih (sound.act action)

end Sound

/-- Only the entry of a source has its number. -/
theorem Sound.number_ne (sound : trace.Sound activeTimeout)
    (member : registration ∈ registrations trace.events) {number : Nat}
    (found : trace.registry.active.get? source = some number)
    (other : ⟨number, source⟩ ≠ registration) : registration.number ≠ number := by
  intro same
  exact other (sound.apart _ (sound.entry_live found).registered _ member same.symm)

theorem Sound.slot?_touch (sound : trace.Sound activeTimeout)
    (other : ∀ number, trace.registry.active.get? source = some number →
      ⟨number, source⟩ ≠ registration) :
    (trace.act (.touch registration)).slot? source = trace.slot? source := by
  simp only [RegistryTrace.act]
  split
  case isTrue member =>
    refine Option.map_congr fun number found => ?_
    have apart := sound.number_ne member found (other number found)
    simp [Registry.touch, Dictionary.get?_insert, apart]
  case isFalse => rfl

theorem Sound.slot?_release (sound : trace.Sound activeTimeout)
    (other : ∀ number, trace.registry.active.get? source = some number →
      ⟨number, source⟩ ≠ registration) :
    (trace.act (.release registration)).slot? source = trace.slot? source := by
  simp only [RegistryTrace.act]
  split
  case isTrue held =>
    have staying : (trace.registry.release registration).active.get? source =
        trace.registry.active.get? source := by
      ext number
      rw [Registry.get?_release_eq_some_iff]
      exact and_iff_left_of_imp (other number)
    simp only [slot?, staying]
    refine Option.map_congr fun number found => ?_
    have apart := sound.number_ne held.1 found (other number found)
    simp [Registry.release, Dictionary.get?_erase, apart]
  case isFalse => rfl

theorem Sound.slot?_register (sound : trace.Sound activeTimeout) {newcomer : String}
    (different : newcomer ≠ source) :
    (trace.act (.register newcomer)).slot? source = trace.slot? source := by
  obtain kept | admitted := trace.act_register newcomer
  · rw [kept]
  · simp only [admitted, slot?, RegistryTrace.admitting, Registry.admitting,
      Dictionary.get?_insert, different, if_false]
    refine Option.map_congr fun number found => ?_
    have below := sound.numbered _ (sound.entry_live found).registered
    rw [if_neg (Nat.ne_of_gt below)]

theorem Sound.slot?_act (sound : trace.Sound activeTimeout) {action : RegistryAction}
    (elsewhere : action.source? ≠ some source) :
    (trace.act action).slot? source = trace.slot? source := by
  have others (registration : Registration) (away : some registration.source ≠ some source)
      (number : Nat) : (⟨number, source⟩ : Registration) ≠ registration := by
    rintro rfl
    exact away rfl
  cases action with
  | register newcomer => exact sound.slot?_register fun same => elsewhere (congrArg some same)
  | touch registration =>
      exact sound.slot?_touch fun number _ => others registration elsewhere number
  | release registration =>
      exact sound.slot?_release fun number _ => others registration elsewhere number
  | elapse span => rfl

theorem holds_act_iff {action : RegistryAction} (elsewhere : action.source? ≠ some other.source) :
    (trace.act action).Holds other ↔ trace.Holds other := by
  cases action with
  | register newcomer =>
      have different : other ≠ ⟨trace.registry.nextNumber, newcomer⟩ := by
        rintro rfl
        exact elsewhere rfl
      obtain kept | admitted := trace.act_register newcomer
      · rw [kept]
      · simp [admitted, admitting, Holds, registrations, returned, different]
  | touch registration =>
      simp only [act]
      split <;> rfl
  | release registration =>
      have different : other ≠ registration := by
        rintro rfl
        exact elsewhere rfl
      simp only [act]
      split
      · simp [Holds, registrations, returned, different]
      · rfl
  | elapse span => rfl

theorem Sound.cancelled_act_iff (sound : trace.Sound activeTimeout) {action : RegistryAction}
    (member : other ∈ registrations trace.events)
    (elsewhere : action.source? ≠ some other.source) :
    other.number ∈ (trace.act action).registry.cancelled ↔
      other.number ∈ trace.registry.cancelled := by
  cases action with
  | register newcomer =>
      obtain kept | admitted := trace.act_register newcomer
      · rw [kept]
      · simp only [admitted, RegistryTrace.admitting, Registry.admitting, List.mem_append,
          Option.mem_toList]
        refine or_iff_left_of_imp fun replaced => ?_
        have equal := sound.apart _ member _ (sound.entry_live replaced).registered rfl
        exact absurd (by rw [equal, RegistryAction.source?]) elsewhere
  | touch registration =>
      simp only [RegistryTrace.act]
      split <;> rfl
  | release registration =>
      simp only [RegistryTrace.act]
      split <;> rfl
  | elapse span => rfl

theorem Sound.register_eq_error_iff (sound : trace.Sound activeTimeout) {fault : Fault} :
    trace.registry.register trace.now source = .error fault ↔
      ∃ number heard, trace.registry.active.get? source = some number ∧
        lastHeard? number trace.events = some heard ∧
        trace.now.micros < heard.micros + activeTimeout.micros ∧
        fault = .rejected (.sourceActive source ⟨trace.now.micros - heard.micros⟩) := by
  rw [Registry.register_eq_error_iff, sound.timeout]
  constructor
  · rintro ⟨number, found, recent, rfl⟩
    obtain ⟨heard, stored, last, past⟩ := sound.heard _ (sound.entry_live found)
    simp only at stored
    simp only [Registry.idle, stored, Option.getD_some] at recent
    refine ⟨number, heard, found, last, ?_, ?_⟩
    · omega
    · simp only [Registry.idle, stored, Option.getD_some]
  · rintro ⟨number, heard, found, last, recent, rfl⟩
    obtain ⟨moment, stored, same, past⟩ := sound.heard _ (sound.entry_live found)
    obtain rfl : heard = moment := Option.some.inj (last.symm.trans same)
    simp only at stored
    refine ⟨number, found, ?_, ?_⟩
    · simp only [Registry.idle, stored, Option.getD_some]
      omega
    · simp only [Registry.idle, stored, Option.getD_some]

/-- What each state of a registry promises, and each action on it. -/
structure HoldsOneEach (trace : RegistryTrace) (activeTimeout : Elapsed) : Prop where
  alone : ∀ first last, trace.Live first → trace.Live last → first.source = last.source →
    first = last
  live_iff_entry : ∀ registration, trace.Live registration ↔
    trace.registry.active.get? registration.source = some registration.number
  refused_iff : ∀ source fault, trace.registry.register trace.now source = .error fault ↔
    ∃ number heard, trace.registry.active.get? source = some number ∧
      lastHeard? number trace.events = some heard ∧
      trace.now.micros < heard.micros + activeTimeout.micros ∧
      fault = .rejected (.sourceActive source ⟨trace.now.micros - heard.micros⟩)
  refused_keeps : ∀ source fault, trace.registry.register trace.now source = .error fault →
    trace.act (.register source) = trace
  admitted : ∀ source registration registry,
    trace.registry.register trace.now source = .ok (registration, registry) →
      registration ∉ registrations trace.events ∧ registration.source = source ∧
      (trace.act (.register source)).Live registration ∧
      ∀ number, number ∈ (trace.act (.register source)).registry.cancelled ↔
        number ∈ trace.registry.cancelled ∨ trace.registry.active.get? source = some number
  replaced_harmless : ∀ registration,
    trace.registry.active.get? registration.source ≠ some registration.number →
      ∀ source, (trace.act (.touch registration)).slot? source = trace.slot? source ∧
        (trace.act (.release registration)).slot? source = trace.slot? source
  independent : ∀ action source, action.source? ≠ some source →
    (trace.act action).slot? source = trace.slot? source ∧
      ∀ registration ∈ registrations trace.events, registration.source = source →
        ((trace.act action).Holds registration ↔ trace.Holds registration) ∧
        (registration.number ∈ (trace.act action).registry.cancelled ↔
          registration.number ∈ trace.registry.cancelled)

theorem Sound.holdsOneEach (sound : trace.Sound activeTimeout) :
    trace.HoldsOneEach activeTimeout where
  alone := by
    intro first last firstLive lastLive same
    have firstEntry := (sound.live_iff first).mp firstLive
    have lastEntry := (sound.live_iff last).mp lastLive
    rw [same, lastEntry] at firstEntry
    exact sound.apart first firstLive.registered last lastLive.registered
      (Option.some.inj firstEntry).symm
  live_iff_entry := sound.live_iff
  refused_iff source fault := sound.register_eq_error_iff
  refused_keeps := by
    intro source fault refused
    exact act_register_of_error refused
  admitted := by
    intro source registration registry done
    obtain ⟨rfl, admitted⟩ := act_register_of_ok done
    rw [admitted]
    refine ⟨sound.fresh, rfl, ?_, fun number => ?_⟩
    · rw [(sound.admitting source).live_iff]
      exact Dictionary.get?_insert_self ..
    · rw [RegistryTrace.admitting, Registry.admitting, List.mem_append, Option.mem_toList]
  replaced_harmless := by
    intro registration replaced source
    have other : ∀ number, trace.registry.active.get? source = some number →
        ⟨number, source⟩ ≠ registration := by
      rintro number found rfl
      exact replaced found
    exact ⟨sound.slot?_touch other, sound.slot?_release other⟩
  independent := by
    intro action source elsewhere
    refine ⟨sound.slot?_act elsewhere, ?_⟩
    rintro registration member rfl
    exact ⟨holds_act_iff elsewhere, sound.cancelled_act_iff member elsewhere⟩

end

theorem start_run_holdsOneEach (activeTimeout now : Elapsed) (actions : List RegistryAction) :
    ((start activeTimeout now).run actions).HoldsOneEach activeTimeout :=
  (start_sound activeTimeout now).run.holdsOneEach

/-- A connection that was replaced goes on and ends; the one that took its place stays. -/
example :
    ((start ⟨30⟩ ⟨0⟩).run [.register "peer", .elapse ⟨31⟩, .register "peer", .touch ⟨0, "peer"⟩,
      .release ⟨0, "peer"⟩]).slot? "peer" = some (1, some ⟨31⟩) := by decide

end RegistryTrace

end DocumentReplication
