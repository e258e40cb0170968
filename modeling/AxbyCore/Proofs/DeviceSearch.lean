import AxbyCore.Proofs.SmallStrings
import AxbyCore.Realsense.DeviceConfiguration
import Mathlib.Data.List.Induction
import Mathlib.Data.List.Nodup

/-! The start of the streaming server. The search gives each kind of stream the first profile
that matches, and what `main` makes of it is what the threads rely on: every frame of an open
sensor finds its stream meta, its topic and its encoder. -/

namespace AxbyCore.Proofs.DeviceSearch
open Realsense
open Serialization (SmallString)

/-- What the search looks for. -/
def wanted (desired : DesiredSettings) (kind : StreamKind) (place : ProfilePlace) : Bool :=
  kind.isCandidate place.profile && desired.matches place.profile kind == some true

/-- What is selected at a place. -/
def selectedAt (kind : StreamKind) (place : ProfilePlace) : Option SelectedProfile :=
  (makeStreamMeta place.device place.sensor place.profile kind).map fun streamMeta =>
    { profile := place.profile, sensorIdx := place.sensorIdx, streamMeta }

def firstPlace (desired : DesiredSettings) (places : List ProfilePlace) (kind : StreamKind) : Option ProfilePlace :=
  places.find? (wanted desired kind)

/-- A device that has a matching profile of every kind. -/
def complete (desired : DesiredSettings) (device : Device) : Bool :=
  StreamKind.all.all fun kind => (firstPlace desired device.places kind).isSome

def typeOf : StreamKind → StreamType
  | .color => .color
  | .depth => .depth
  | .accel => .accel
  | .gyro => .gyro

/-! One profile. -/

section
variable {desired : DesiredSettings} {kind other : StreamKind} {profile : StreamProfile}

theorem candidate_type (candidate : kind.isCandidate profile = true) :
    rsToStreamType profile.streamType = typeOf kind := by
  cases kind <;> simp only [StreamKind.isCandidate, Bool.and_eq_true, beq_iff_eq] at candidate <;> rw [candidate.2] <;> rfl

theorem candidate_unique (one : kind.isCandidate profile = true) (two : other.isCandidate profile = true) : kind = other := by
  have same : typeOf kind = typeOf other := (candidate_type one).symm.trans (candidate_type two)
  clear one two
  cases kind <;> cases other <;> first | rfl | exact absurd same (by decide)

theorem mem_all (kind : StreamKind) : kind ∈ StreamKind.all := by
  cases kind <;> decide

/-- A profile is selected for its kind if that has none yet and the profile is wanted. -/
theorem visitProfile_spec {selection next : Selection} {place : ProfilePlace}
    (visited : visitProfile desired selection place = some next) (kind : StreamKind) :
    (selection kind ≠ none → next kind = selection kind) ∧
      (selection kind = none → wanted desired kind place = true →
        ∃ found, selectedAt kind place = some found ∧ next kind = some found) ∧
      (selection kind = none → wanted desired kind place = false → next kind = none) := by
  unfold visitProfile at visited
  cases found : StreamKind.all.find? fun kind => kind.isCandidate place.profile with
  | none =>
    rw [found] at visited
    obtain rfl := Option.some.inj visited
    have unwanted : wanted desired kind place = false := by
      have candidate := List.find?_eq_none.mp found kind (mem_all kind)
      rw [wanted, Bool.eq_false_iff.mpr candidate, Bool.false_and]
    exact ⟨fun _ => rfl, fun _ want => absurd (unwanted.symm.trans want) (by decide), fun missing _ => missing⟩
  | some first =>
    rw [found] at visited
    have candidate : first.isCandidate place.profile = true := List.find?_some found
    dsimp only at visited
    have elsewhere (other : StreamKind) (apart : other ≠ first) : wanted desired other place = false := by
      have foreign : other.isCandidate place.profile = false := by
        rw [Bool.eq_false_iff]
        exact fun also => apart (candidate_unique also candidate)
      rw [wanted, foreign, Bool.false_and]
    unfold selectProfile at visited
    by_cases already : (selection first).isSome = true
    · rw [if_pos already] at visited
      obtain rfl := Option.some.inj visited
      refine ⟨fun _ => rfl, ?_, fun missing _ => missing⟩
      intro missing want
      by_cases apart : kind = first
      · rw [← apart, missing] at already
        cases already
      · exact absurd ((elsewhere kind apart).symm.trans want) (by decide)
    · rw [if_neg already] at visited
      obtain ⟨matched, compared, visited⟩ := Option.bind_eq_some_iff.mp visited
      cases matched with
      | false =>
        obtain rfl := Option.some.inj visited
        refine ⟨fun _ => rfl, ?_, fun missing _ => missing⟩
        intro _ want
        by_cases apart : kind = first
        · rw [apart, wanted, compared] at want
          simp at want
        · exact absurd ((elsewhere kind apart).symm.trans want) (by decide)
      | true =>
        obtain ⟨streamMeta, made, visited⟩ := Option.bind_eq_some_iff.mp visited
        obtain rfl := Option.some.inj visited
        by_cases apart : kind = first
        · subst apart
          have missing : selection kind = none := Option.not_isSome_iff_eq_none.mp already
          refine ⟨fun present => absurd missing present, ?_, ?_⟩
          · intro _ _
            refine ⟨_, ?_, Function.update_self ..⟩
            rw [selectedAt, made]
            rfl
          · intro _ unwanted
            rw [wanted, candidate, compared] at unwanted
            exact absurd unwanted (by decide)
        · have same : Function.update selection first (some ⟨place.profile, place.sensorIdx, streamMeta⟩) kind =
              selection kind := Function.update_of_ne apart ..
          refine ⟨fun _ => same, ?_, fun missing _ => same.trans missing⟩
          exact fun _ want => absurd ((elsewhere kind apart).symm.trans want) (by decide)

end

/-! The search of a device. -/

section
variable {desired : DesiredSettings} {selection final : Selection}

/-- The loops select the first profile that is wanted. -/
theorem walk_spec {places : List ProfilePlace} (walked : places.foldlM (visitProfile desired) selection = some final)
    (kind : StreamKind) :
    (selection kind ≠ none → final kind = selection kind) ∧
      (selection kind = none → ∀ place, firstPlace desired places kind = some place →
        ∃ found, selectedAt kind place = some found ∧ final kind = some found) ∧
      (selection kind = none → firstPlace desired places kind = none → final kind = none) := by
  induction places generalizing selection with
  | nil =>
    obtain rfl := Option.some.inj walked
    refine ⟨fun _ => rfl, ?_, fun missing _ => missing⟩
    intro _ place first
    cases first
  | cons place places ih =>
    rw [List.foldlM_cons] at walked
    obtain ⟨next, visited, walked⟩ := Option.bind_eq_some_iff.mp walked
    obtain ⟨kept, taken, passed⟩ := visitProfile_spec visited kind
    obtain ⟨keeps, takes, passes⟩ := ih walked
    refine ⟨?_, ?_, ?_⟩
    · intro present
      have same := kept present
      rw [← same] at present ⊢
      exact keeps present
    · intro missing first found
      rw [firstPlace] at found
      cases want : wanted desired kind place with
      | true =>
        rw [List.find?_cons_of_pos want] at found
        obtain rfl := Option.some.inj found
        obtain ⟨selected, made, held⟩ := taken missing want
        exact ⟨selected, made, (keeps (by rw [held]; exact Option.some_ne_none selected)).trans held⟩
      | false =>
        rw [List.find?_cons_of_neg (by rw [want]; exact Bool.false_ne_true)] at found
        exact takes (passed missing want) first found
    · intro missing nowhere
      rw [firstPlace] at nowhere
      cases want : wanted desired kind place with
      | true =>
        rw [List.find?_cons_of_pos want] at nowhere
        cases nowhere
      | false =>
        rw [List.find?_cons_of_neg (by rw [want]; exact Bool.false_ne_true)] at nowhere
        exact passes (passed missing want) nowhere

end

/-! The configurations. -/

/-- A configuration has the first matching profile of every kind, with its stream meta. -/
def Configures (extrinsicsTo : StreamProfile → StreamProfile → Vector UInt32 16) (desired : DesiredSettings)
    (config : DeviceConfiguration) : Prop :=
  ∀ kind, ∃ place found, firstPlace desired config.device.places kind = some place ∧ selectedAt kind place = some found ∧
    config.selected kind = { found with streamMeta := { found.streamMeta with
      extrinsics := makeExtrinsics extrinsicsTo (fun kind => (config.selected kind).profile) kind } }

section
variable {extrinsicsTo : StreamProfile → StreamProfile → Vector UInt32 16} {desired : DesiredSettings}

theorem finishConfiguration_spec {device : Device} {selection : Selection} {config : DeviceConfiguration}
    (finished : finishConfiguration extrinsicsTo device selection = some config) :
    config.device = device ∧ ∀ kind, ∃ found, selection kind = some found ∧
      config.selected kind = { found with streamMeta := { found.streamMeta with
        extrinsics := makeExtrinsics extrinsicsTo (fun kind => (config.selected kind).profile) kind } } := by
  obtain ⟨color, hasColor, finished⟩ := Option.bind_eq_some_iff.mp finished
  obtain ⟨depth, hasDepth, finished⟩ := Option.bind_eq_some_iff.mp finished
  obtain ⟨accel, hasAccel, finished⟩ := Option.bind_eq_some_iff.mp finished
  obtain ⟨gyro, hasGyro, finished⟩ := Option.bind_eq_some_iff.mp finished
  obtain rfl := Option.some.inj finished
  refine ⟨rfl, ?_⟩
  intro kind
  cases kind with
  | color => exact ⟨color, hasColor, rfl⟩
  | depth => exact ⟨depth, hasDepth, rfl⟩
  | accel => exact ⟨accel, hasAccel, rfl⟩
  | gyro => exact ⟨gyro, hasGyro, rfl⟩

theorem finishConfiguration_none {device : Device} {selection : Selection}
    (unfinished : finishConfiguration extrinsicsTo device selection = none) : ∃ kind, selection kind = none := by
  unfold finishConfiguration at unfinished
  cases color : selection .color with
  | none => exact ⟨.color, color⟩
  | some _ =>
    cases depth : selection .depth with
    | none => exact ⟨.depth, depth⟩
    | some _ =>
      cases accel : selection .accel with
      | none => exact ⟨.accel, accel⟩
      | some _ =>
        cases gyro : selection .gyro with
        | none => exact ⟨.gyro, gyro⟩
        | some _ =>
          rw [color, depth, accel, gyro] at unfinished
          cases unfinished

/-- A device gets a configuration if it is complete. -/
theorem configureDevice_spec {out after : List DeviceConfiguration} {device : Device}
    (configured : configureDevice extrinsicsTo desired out device = some after) :
    ∃ found : Option DeviceConfiguration, after = out ++ found.toList ∧
      (found.toList.map (·.device) = [device].filter (complete desired)) ∧
      ∀ config ∈ found, Configures extrinsicsTo desired config := by
  unfold configureDevice at configured
  split at configured
  next =>
    obtain ⟨selection, walked, configured⟩ := Option.bind_eq_some_iff.mp configured
    obtain rfl := Option.some.inj configured
    refine ⟨finishConfiguration extrinsicsTo device selection, rfl, ?_, ?_⟩
    · cases finished : finishConfiguration extrinsicsTo device selection with
      | some config =>
        obtain ⟨same, filled⟩ := finishConfiguration_spec finished
        have full : complete desired device = true := by
          apply List.all_eq_true.mpr
          intro kind _
          obtain ⟨found, held, _⟩ := filled kind
          cases first : firstPlace desired device.places kind with
          | some place => rfl
          | none => exact absurd (held.symm.trans ((walk_spec walked kind).2.2 rfl first)) (Option.some_ne_none found)
        rw [List.filter_cons_of_pos full, Option.toList_some, List.map_singleton, same]
        rfl
      | none =>
        obtain ⟨kind, missing⟩ := finishConfiguration_none finished
        have lacking : complete desired device = false := by
          rw [Bool.eq_false_iff]
          intro full
          obtain ⟨place, first⟩ := Option.isSome_iff_exists.mp (List.all_eq_true.mp full kind (mem_all kind))
          obtain ⟨found, _, held⟩ := (walk_spec walked kind).2.1 rfl place first
          rw [missing] at held
          cases held
        rw [List.filter_cons_of_neg (by rw [lacking]; exact Bool.false_ne_true)]
        rfl
    · intro config finished kind
      obtain ⟨same, filled⟩ := finishConfiguration_spec finished
      obtain ⟨found, held, whole⟩ := filled kind
      rw [same]
      cases first : firstPlace desired device.places kind with
      | none => exact absurd (held.symm.trans ((walk_spec walked kind).2.2 rfl first)) (Option.some_ne_none found)
      | some place =>
        obtain ⟨selected, made, again⟩ := (walk_spec walked kind).2.1 rfl place first
        obtain rfl := Option.some.inj (held.symm.trans again)
        exact ⟨place, found, rfl, made, whole⟩
  next => cases configured

/-- The configurations are those of the complete devices, in their order. -/
theorem getDeviceConfigurations_spec {devices : List Device} {configs : List DeviceConfiguration}
    (configured : getDeviceConfigurations extrinsicsTo desired devices = some configs) :
    configs.map (·.device) = devices.filter (complete desired) ∧ ∀ config ∈ configs, Configures extrinsicsTo desired config := by
  induction devices using List.reverseRecOn generalizing configs with
  | nil =>
    obtain rfl := Option.some.inj configured
    refine ⟨rfl, ?_⟩
    intro config member
    cases member
  | append_singleton devices device ih =>
    rw [getDeviceConfigurations, List.foldlM_append] at configured
    obtain ⟨before, earlier, last⟩ := Option.bind_eq_some_iff.mp configured
    rw [List.foldlM_cons] at last
    obtain ⟨after, one, last⟩ := Option.bind_eq_some_iff.mp last
    obtain rfl := Option.some.inj last
    obtain ⟨found, rfl, kept, configures⟩ := configureDevice_spec one
    obtain ⟨same, all⟩ := ih earlier
    refine ⟨?_, ?_⟩
    · rw [List.map_append, List.filter_append, same, kept]
    · intro config member
      cases List.mem_append.mp member with
      | inl older => exact all config older
      | inr newest => exact configures config (Option.mem_toList.mp newest)

end

/-! What `main` makes of the configurations. -/

section
variable {extrinsicsTo : StreamProfile → StreamProfile → Vector UInt32 16} {desired : DesiredSettings}
  {config : DeviceConfiguration}

theorem mem_places {device : Device} {place : ProfilePlace} (member : place ∈ device.places) :
    place.device = device ∧ device.sensors[place.sensorIdx]? = some place.sensor ∧ place.profile ∈ place.sensor.profiles := by
  obtain ⟨entry, inside, listed⟩ := List.mem_flatMap.mp member
  obtain ⟨profile, held, rfl⟩ := List.mem_map.mp listed
  exact ⟨rfl, List.mem_zipIdx_iff_getElem?.mp inside, held⟩

/-- Where the profile of a kind lies, and what its stream meta says. -/
structure Selects (config : DeviceConfiguration) (kind : StreamKind) (place : ProfilePlace) : Prop where
  listed : place ∈ config.device.places
  candidate : kind.isCandidate place.profile = true
  profile : (config.selected kind).profile = place.profile
  sensorIdx : (config.selected kind).sensorIdx = place.sensorIdx
  type : (config.selected kind).streamMeta.id.type = typeOf kind
  serial : (config.selected kind).streamMeta.id.serialNumber.str = some config.device.serialNumber

theorem str_of_string {str : Bytes} {string : SmallString 24} (made : SmallString.ofString str = some string) :
    string.str = some str := by
  obtain ⟨_, fits, _⟩ := SmallStrings.ofString_eq_some (by decide) made
  obtain ⟨other, again, whole⟩ := SmallStrings.ofString_str (by decide) fits
  obtain rfl := Option.some.inj (made.symm.trans again)
  exact whole

theorem makeStreamMeta_id {device : Device} {sensor : Sensor} {profile : StreamProfile} {kind : StreamKind}
    {streamMeta : StreamMeta} (made : makeStreamMeta device sensor profile kind = some streamMeta) :
    streamMeta.id.type = rsToStreamType profile.streamType ∧ streamMeta.id.serialNumber.str = some device.serialNumber := by
  obtain ⟨common, first, made⟩ := Option.bind_eq_some_iff.mp made
  have id : streamMeta.id = common.id := by
    cases kind with
    | color =>
      obtain ⟨video, _, made⟩ := Option.bind_eq_some_iff.mp made
      obtain rfl := Option.some.inj made
      rfl
    | depth =>
      obtain ⟨video, _, made⟩ := Option.bind_eq_some_iff.mp made
      obtain ⟨depthScale, _, made⟩ := Option.bind_eq_some_iff.mp made
      obtain rfl := Option.some.inj made
      rfl
    | accel | gyro =>
      obtain rfl := Option.some.inj made
      rfl
  obtain ⟨serialNumber, serial, first⟩ := Option.bind_eq_some_iff.mp first
  obtain ⟨deviceName, _, first⟩ := Option.bind_eq_some_iff.mp first
  obtain rfl := Option.some.inj first
  rw [id]
  exact ⟨rfl, str_of_string serial⟩

theorem Configures.selects (configures : Configures extrinsicsTo desired config) (kind : StreamKind) :
    ∃ place, firstPlace desired config.device.places kind = some place ∧ Selects config kind place := by
  obtain ⟨place, found, first, made, whole⟩ := configures kind
  have listed := List.mem_of_find?_eq_some first
  have want : wanted desired kind place = true := List.find?_some first
  rw [wanted, Bool.and_eq_true] at want
  obtain ⟨streamMeta, metaMade, rfl⟩ := Option.map_eq_some_iff.mp made
  obtain ⟨type, serial⟩ := makeStreamMeta_id metaMade
  refine ⟨place, first, listed, want.1, ?_, ?_, ?_, ?_⟩
  · exact congrArg SelectedProfile.profile whole
  · exact congrArg SelectedProfile.sensorIdx whole
  · rw [whole]
    exact type.trans (candidate_type want.1)
  · rw [whole, ← (mem_places listed).1]
    exact serial

/-- The profiles that a sensor is opened with. -/
theorem mem_sensorIdxToProfiles {sensorIdx : Nat} {profiles : List StreamProfile}
    (found : config.sensorIdxToProfiles sensorIdx = some profiles) : profiles ≠ [] ∧
      ∀ profile, profile ∈ profiles ↔
        ∃ kind, (config.selected kind).sensorIdx = sensorIdx ∧
          (config.selected kind).profile = profile := by
  unfold DeviceConfiguration.sensorIdxToProfiles at found
  have every : ∀ kind, kind ∈ ([.accel, .gyro, .color, .depth] : List StreamKind) := by
    intro kind
    cases kind <;> decide
  split at found
  next => cases found
  next kinds some =>
    obtain rfl := Option.some.inj found
    refine ⟨?_, ?_⟩
    · rw [ne_eq, List.map_eq_nil_iff]
      exact some
    · intro profile
      simp only [List.mem_map, List.mem_filter, beq_iff_eq]
      constructor
      · intro listed
        obtain ⟨kind, ⟨_, here⟩, same⟩ := listed
        exact ⟨kind, here, same⟩
      · intro listed
        obtain ⟨kind, here, same⟩ := listed
        exact ⟨kind, ⟨every kind, here⟩, same⟩

/-- The sensors of a configuration are opened one after the other. -/
theorem openConfiguration_spec {before after : List OpenSensor} (opened : openConfiguration before config = some after) :
    ∃ sensors, after = before ++ sensors ∧
      (∀ sensor ∈ sensors, sensor.device = config.device ∧ config.sensorIdxToProfiles sensor.sensorIdx = some sensor.profiles) ∧
      ∀ sensorIdx < config.device.sensors.length, ∃ sensor ∈ sensors, sensor.sensorIdx = sensorIdx := by
  unfold openConfiguration at opened
  generalize config.device.sensors.length = count at opened ⊢
  induction count generalizing after with
  | zero =>
    obtain rfl := Option.some.inj opened
    refine ⟨[], (List.append_nil _).symm, ?_, ?_⟩
    · intro sensor member
      cases member
    · exact fun _ below => absurd below (Nat.not_lt_zero _)
  | succ count ih =>
    rw [List.range_succ, List.foldlM_append] at opened
    obtain ⟨middle, earlier, last⟩ := Option.bind_eq_some_iff.mp opened
    rw [List.foldlM_cons] at last
    obtain ⟨next, one, last⟩ := Option.bind_eq_some_iff.mp last
    obtain rfl := Option.some.inj last
    obtain ⟨profiles, found, one⟩ := Option.bind_eq_some_iff.mp one
    obtain rfl := Option.some.inj one
    obtain ⟨sensors, rfl, known, whole⟩ := ih earlier
    refine ⟨sensors ++ [⟨config.device, count, profiles⟩], List.append_assoc .., ?_, ?_⟩
    · intro sensor member
      cases List.mem_append.mp member with
      | inl older => exact known sensor older
      | inr newest =>
        rw [List.mem_singleton.mp newest]
        exact ⟨rfl, found⟩
    · intro sensorIdx below
      by_cases older : sensorIdx < count
      · obtain ⟨sensor, member, here⟩ := whole sensorIdx older
        exact ⟨sensor, List.mem_append_left _ member, here⟩
      · exact ⟨_, List.mem_append_right _ (List.mem_singleton_self _), by dsimp only; omega⟩

theorem openConfigurations_spec {configs : List DeviceConfiguration} {before after : List OpenSensor}
    (opened : configs.foldlM openConfiguration before = some after) :
    (∀ sensor ∈ after, sensor ∈ before ∨ ∃ config ∈ configs, sensor.device = config.device ∧
      config.sensorIdxToProfiles sensor.sensorIdx = some sensor.profiles) ∧
    (∀ sensor ∈ before, sensor ∈ after) ∧
    ∀ config ∈ configs, ∀ sensorIdx < config.device.sensors.length, ∃ sensor ∈ after, sensor.device = config.device ∧
      sensor.sensorIdx = sensorIdx ∧ config.sensorIdxToProfiles sensorIdx = some sensor.profiles := by
  induction configs generalizing before with
  | nil =>
    obtain rfl := Option.some.inj opened
    refine ⟨fun sensor member => .inl member, fun sensor member => member, ?_⟩
    intro config member
    cases member
  | cons config configs ih =>
    rw [List.foldlM_cons] at opened
    obtain ⟨middle, one, rest⟩ := Option.bind_eq_some_iff.mp opened
    obtain ⟨sensors, rfl, known, whole⟩ := openConfiguration_spec one
    obtain ⟨origin, kept, every⟩ := ih rest
    refine ⟨?_, ?_, ?_⟩
    · intro sensor member
      cases origin sensor member with
      | inl older =>
        cases List.mem_append.mp older with
        | inl before => exact .inl before
        | inr mine => exact .inr ⟨config, List.mem_cons_self, known sensor mine⟩
      | inr later =>
        obtain ⟨other, listed, here⟩ := later
        exact .inr ⟨other, List.mem_cons_of_mem _ listed, here⟩
    · exact fun sensor member => kept sensor (List.mem_append_left _ member)
    · intro other member sensorIdx below
      cases List.mem_cons.mp member with
      | inl same =>
        subst same
        obtain ⟨sensor, mine, here⟩ := whole sensorIdx below
        obtain ⟨device, found⟩ := known sensor mine
        rw [here] at found
        exact ⟨sensor, kept sensor (List.mem_append_right _ mine), device, here, found⟩
      | inr later => exact every other later sensorIdx below

/-! The table by unique id. -/

/-- Where the profiles lie that the search selects. -/
def selectedPlaces (desired : DesiredSettings) (devices : List Device) : List ProfilePlace :=
  (devices.filter (complete desired)).flatMap fun device => StreamKind.all.filterMap (firstPlace desired device.places)

/-- No two selected profiles have one unique id. -/
def UniqueIds (desired : DesiredSettings) (devices : List Device) : Prop :=
  ((selectedPlaces desired devices).map (·.profile.uniqueId)).Nodup

/-- A device that is listed twice would have its profiles selected twice. -/
theorem UniqueIds.devices {devices : List Device} (unique : UniqueIds desired devices) :
    (devices.filter (complete desired)).Nodup := by
  have apart := (List.nodup_flatMap.mp (List.Nodup.of_map _ unique)).2
  apply List.Pairwise.imp_of_mem _ apart
  rintro one other listed _ disjoint rfl
  have full : complete desired one = true := (List.mem_filter.mp listed).2
  obtain ⟨place, first⟩ := Option.isSome_iff_exists.mp (List.all_eq_true.mp full .color (mem_all .color))
  have selected : place ∈ StreamKind.all.filterMap (firstPlace desired one.places) :=
    List.mem_filterMap.mpr ⟨.color, mem_all .color, first⟩
  exact disjoint selected selected

/-- A table that is filled in is as the entries of a key say, if they agree. -/
theorem foldl_update {entries : List (Int32 × StreamMeta)} {table : Int32 → Option StreamMeta} {uid : Int32}
    {streamMeta : StreamMeta} (agree : ∀ entry ∈ entries, entry.1 = uid → entry.2 = streamMeta) :
    (entries.foldl (fun (table : Int32 → Option StreamMeta) entry => Function.update table entry.1 (some entry.2)) table) uid =
      if entries.any (·.1 == uid) then some streamMeta else table uid := by
  induction entries generalizing table with
  | nil => rfl
  | cons entry entries ih =>
    rw [List.foldl_cons, ih fun later member => agree later (List.mem_cons_of_mem _ member), List.any_cons]
    by_cases here : entry.1 = uid
    · rw [here, Function.update_self, agree entry List.mem_cons_self here, beq_self_eq_true, Bool.true_or, if_pos rfl,
        ite_self]
    · rw [Function.update_of_ne (Ne.symm here), beq_eq_false_iff_ne.mpr here, Bool.false_or]

/-- Every selected profile has its own stream meta in the table. -/
theorem makeUidToStreamMeta_spec {devices : List Device} {configs : List DeviceConfiguration}
    (unique : UniqueIds desired devices) (same : configs.map (·.device) = devices.filter (complete desired))
    (configures : ∀ config ∈ configs, Configures extrinsicsTo desired config)
    (member : config ∈ configs) (kind : StreamKind) :
    makeUidToStreamMeta configs (config.selected kind).profile.uniqueId = some (config.selected kind).streamMeta := by
  have placed : ∀ other ∈ configs, ∀ otherKind, ∃ place, Selects other otherKind place ∧ place ∈ selectedPlaces desired devices := by
    intro other listed otherKind
    obtain ⟨place, first, selects⟩ := (configures other listed).selects otherKind
    refine ⟨place, selects, List.mem_flatMap.mpr ⟨other.device, ?_, List.mem_filterMap.mpr ⟨otherKind, mem_all _, first⟩⟩⟩
    rw [← same]
    exact List.mem_map_of_mem listed
  obtain ⟨place, selects, inside⟩ := placed config member kind
  have agree : ∀ entry ∈ configs.flatMap DeviceConfiguration.metas,
      entry.1 = (config.selected kind).profile.uniqueId → entry.2 = (config.selected kind).streamMeta := by
    intro entry listed equal
    obtain ⟨other, otherMember, listed⟩ := List.mem_flatMap.mp listed
    obtain ⟨otherKind, _, rfl⟩ := List.mem_map.mp listed
    obtain ⟨otherPlace, otherSelects, otherInside⟩ := placed other otherMember otherKind
    rw [otherSelects.profile, selects.profile] at equal
    obtain rfl : otherPlace = place := List.inj_on_of_nodup_map unique otherInside inside equal
    obtain rfl := candidate_unique otherSelects.candidate selects.candidate
    have device := (mem_places otherSelects.listed).1.symm.trans (mem_places selects.listed).1
    have distinct : (configs.map (·.device)).Nodup := by
      rw [same]
      exact unique.devices
    rw [List.inj_on_of_nodup_map distinct otherMember member device]
  rw [makeUidToStreamMeta, foldl_update agree, if_pos]
  apply List.any_eq_true.mpr
  refine ⟨((config.selected kind).profile.uniqueId, (config.selected kind).streamMeta), ?_, beq_self_eq_true _⟩
  apply List.mem_flatMap.mpr
  refine ⟨config, member, List.mem_map.mpr ⟨kind, ?_, rfl⟩⟩
  cases kind <;> decide

/-- The stream meta of a frame, the topic it is published under, and the encoder that its thread looks up. -/
structure Served (server : StreamingServer) (profile : StreamProfile) (device : Device) : Prop where
  known : ∃ kind streamMeta topic, kind.isCandidate profile = true ∧
    server.uidToStreamMeta profile.uniqueId = some streamMeta ∧ streamMeta.id.type = typeOf kind ∧
    streamMeta.id.serialNumber.str = some device.serialNumber ∧ getTopic streamMeta.id = some topic
  depth : StreamKind.isCandidate profile .depth = true →
    (DepthServer.start server.uidToStreamMeta).encoders profile.uniqueId ≠ none
  motion : StreamKind.isCandidate profile .accel = true ∨ StreamKind.isCandidate profile .gyro = true →
    (MotionServer.start server.uidToStreamMeta).encoders profile.uniqueId ≠ none

theorem served_of {server : StreamingServer} {place : ProfilePlace} {kind : StreamKind} (selects : Selects config kind place)
    (known : server.uidToStreamMeta place.profile.uniqueId = some (config.selected kind).streamMeta) :
    Served server place.profile config.device := by
  have only : ∀ other, StreamKind.isCandidate place.profile other = true → other = kind :=
    fun other candidate => candidate_unique candidate selects.candidate
  refine ⟨?_, ?_, ?_⟩
  · have named : ∃ topic, getTopic (config.selected kind).streamMeta.id = some topic := by
      rw [getTopic, selects.serial, selects.type]
      cases kind with
      | color | depth | gyro | accel => exact ⟨_, rfl⟩
    obtain ⟨topic, named⟩ := named
    exact ⟨kind, _, topic, selects.candidate, known, selects.type, selects.serial, named⟩
  · intro candidate
    obtain rfl := only _ candidate
    simp only [DepthServer.start, known, selects.type, typeOf, if_pos]
    exact Option.some_ne_none _
  · intro candidate
    have motion : (config.selected kind).streamMeta.id.type = .accel ∨ (config.selected kind).streamMeta.id.type = .gyro := by
      rw [selects.type]
      cases candidate with
      | inl accel => rw [← only _ accel]; exact .inl rfl
      | inr gyro => rw [← only _ gyro]; exact .inr rfl
    simp only [MotionServer.start, known, if_pos motion]
    exact Option.some_ne_none _

/-- If the server starts, its configurations are those of the devices that have a matching profile of every kind, in their
order and each with the first matches; every sensor of theirs is open, with its selected profiles and no others; and of
every frame that such a profile gives the stream meta, the topic and the encoder are found. -/
theorem server_started {devices : List Device} {server : StreamingServer} (unique : UniqueIds desired devices)
    (started : startServer extrinsicsTo desired devices = some server) :
    server.configs.map (·.device) = devices.filter (complete desired) ∧
    (∀ config ∈ server.configs, Configures extrinsicsTo desired config ∧
      ∀ sensorIdx < config.device.sensors.length, ∃ sensor ∈ server.openSensors,
        sensor.device = config.device ∧ sensor.sensorIdx = sensorIdx) ∧
    ∀ sensor ∈ server.openSensors, sensor.profiles ≠ [] ∧ ∃ config ∈ server.configs, config.device = sensor.device ∧
      ∀ profile, profile ∈ sensor.profiles ↔ ∃ kind,
        (config.selected kind).sensorIdx = sensor.sensorIdx ∧ (config.selected kind).profile = profile ∧
        (∃ opened, sensor.device.sensors[sensor.sensorIdx]? = some opened ∧ profile ∈ opened.profiles) ∧
        Served server profile sensor.device := by
  obtain ⟨configs, configured, started⟩ := Option.bind_eq_some_iff.mp started
  obtain ⟨openSensors, opened, started⟩ := Option.bind_eq_some_iff.mp started
  obtain rfl := Option.some.inj started
  obtain ⟨same, configures⟩ := getDeviceConfigurations_spec configured
  obtain ⟨origin, _, every⟩ := openConfigurations_spec opened
  refine ⟨same, ?_, ?_⟩
  · intro config member
    refine ⟨configures config member, ?_⟩
    intro sensorIdx below
    obtain ⟨sensor, listed, device, here, _⟩ := every config member sensorIdx below
    exact ⟨sensor, listed, device, here⟩
  · intro sensor member
    obtain ⟨config, listed, device, found⟩ := (origin sensor member).resolve_left (List.not_mem_nil)
    obtain ⟨some, profiles⟩ := mem_sensorIdxToProfiles found
    refine ⟨some, config, listed, device.symm, ?_⟩
    intro profile
    rw [profiles]
    constructor
    · intro chosen
      obtain ⟨kind, here, rfl⟩ := chosen
      obtain ⟨place, _, selects⟩ := (configures config listed).selects kind
      have table := makeUidToStreamMeta_spec unique same configures listed kind
      obtain ⟨_, place_sensor, place_profile⟩ := mem_places selects.listed
      refine ⟨kind, here, rfl, ?_, ?_⟩
      · rw [device, ← here, selects.sensorIdx, selects.profile]
        exact ⟨place.sensor, place_sensor, place_profile⟩
      · rw [selects.profile] at table ⊢
        rw [device]
        exact served_of selects table
    · intro chosen
      obtain ⟨kind, here, same, _⟩ := chosen
      exact ⟨kind, here, same⟩

end

/-! A camera that also has a depth profile of another size, before the one that is wanted. -/

def cameraProfile (uniqueId : Int32) (format : RsFormat) (streamType : RsStream) (width height fps : Int32) : StreamProfile where
  uniqueId := uniqueId
  format := format
  streamType := streamType
  streamIndex := 0
  fps := fps
  video := if format = .motionXyz32f then none else some ⟨width, height, ⟨width, height, 0, 0, 0, 0⟩⟩
  isMotion := format == .motionXyz32f

def camera : Device where
  name := [68, 52]
  serialNumber := [55]
  sensors := [
    ⟨[cameraProfile 1 .z16 .depth 1280 720 30, cameraProfile 2 .z16 .depth 640 480 30], some 1⟩,
    ⟨[cameraProfile 3 .rgb8 .color 640 480 30], none⟩,
    ⟨[cameraProfile 4 .motionXyz32f .accel 0 0 200, cameraProfile 5 .motionXyz32f .gyro 0 0 200], none⟩]

theorem server_started_camera : ∃ server, startServer (fun _ _ => Vector.replicate 16 0) {} [camera] = some server ∧
    server.configs.map (·.device) = [camera] := by
  have starts : (startServer (fun _ _ => Vector.replicate 16 0) {} [camera]).isSome = true := by decide +kernel
  obtain ⟨server, started⟩ := Option.isSome_iff_exists.mp starts
  have full : [camera].filter (complete {}) = [camera] := by decide +kernel
  exact ⟨server, started, (server_started (by unfold UniqueIds; decide +kernel) started).1.trans full⟩

end AxbyCore.Proofs.DeviceSearch
