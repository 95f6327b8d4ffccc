import AgentTaskPlatform.PlatformReload

/-!
What becomes of the settings of a file when they initialize the database: the records of the
sections, the names that the API keys get, and the settings that a process merges back. The
sections and the records have validators of their own.
-/

namespace AgentTaskPlatform.PlatformRoundTrip

open ApiKeys PlatformSettings PlatformConfigs PlatformReload
open KeyedTable (Table)

variable {Channels Kept : Type} [Inhabited Channels]

section Builders

/-- A builder that checks its argument gives the record of it, or nothing. -/
theorem checked_ok {Value : Type} (holds : Value → Prop) [DecidablePred holds] {value : Value}
    {error : Exc} {record : { value : Value // holds value }} :
    (if valid : holds value then Except.ok ⟨value, valid⟩ else .error error) = .ok record ↔
      record.1 = value := by
  by_cases valid : holds value
  · rw [dif_pos valid, Except.ok.injEq, Subtype.ext_iff]
    exact eq_comm
  · rw [dif_neg valid]
    constructor
    · intro made
      cases made
    · rintro rfl
      exact absurd record.2 valid

theorem apiKeyConfig_ok {values : ApiKeyValues} {config : ApiKeyConfig} :
    apiKeyConfig values = .ok config ↔ config.1 = values := by
  rw [apiKeyConfig]
  exact checked_ok fun values : ApiKeyValues => values.valid = true

theorem runtimeConfig_ok {values : RuntimeValues} {config : RuntimeConfig} :
    runtimeConfig values = .ok config ↔ config.1 = values := by
  rw [runtimeConfig]
  exact checked_ok fun values : RuntimeValues => values.valid = true

theorem modelConfig_ok {model : ModelSection} {config : ModelConfig} :
    modelConfig model = .ok config ↔ config.1 = model := by
  rw [modelConfig]
  exact checked_ok fun model => model.valid = true ∧ backoffRange model = true

theorem platformCallbackConfig_ok {callback : CallbackSection Channels}
    {config : PlatformCallbackConfig Channels} :
    platformCallbackConfig callback = .ok config ↔ config.1 = callback := by
  rw [platformCallbackConfig]
  exact checked_ok fun callback : CallbackSection Channels => callback.valid = true

end Builders

section Names

def suffixed (base : String) (suffix : Nat) : String := base ++ "-" ++ toString suffix

theorem suffixed_inj {base : String} {left right : Nat}
    (same : suffixed base left = suffixed base right) : left = right := by
  -- Decimal digits determine their number.
  have digits : Nat.toDigits 10 left = Nat.toDigits 10 right := by
    simpa [suffixed, ← String.toList_inj, Nat.toString_eq_repr, Nat.toList_repr] using same
  rw [← @Nat.ofDigitChars_ten_toDigits left, digits, Nat.ofDigitChars_ten_toDigits]

theorem suffixed_ne (base : String) (suffix : Nat) : suffixed base suffix ≠ base := by
  intro same
  have lengths := congrArg String.length same
  simp only [suffixed, String.length_append] at lengths
  have dash : "-".length = 1 := rfl
  omega

theorem freeName_taken {names : List String} {base : String} {fuel suffix : Nat} {name : String}
    (taken : freeName names base fuel suffix name ∈ names) :
    name ∈ names ∧ ∀ later < fuel, suffixed base (suffix + later) ∈ names := by
  -- On the fuel: each round that goes on has seen its own name taken.
  induction fuel generalizing suffix name with
  | zero => exact ⟨taken, fun later bound => absurd bound (Nat.not_lt_zero _)⟩
  | succ fuel ih =>
      by_cases own : name ∈ names
      · rw [freeName, if_pos own] at taken
        obtain ⟨first, rest⟩ := ih taken
        refine ⟨own, fun later bound => ?_⟩
        cases later with
        | zero => exact first
        | succ later =>
            have next := rest later (by omega)
            rwa [Nat.add_right_comm, Nat.add_assoc] at next
      · rw [freeName, if_neg own] at taken
        exact absurd taken own

theorem uniqueName_fresh (names : List String) (base : String) :
    uniqueName names base ∉ names := by
  intro taken
  obtain ⟨own, suffixes⟩ := freeName_taken taken
  -- One candidate more than there are names, and all of them different.
  have distinct : (base :: (List.range names.length).map fun later =>
      suffixed base (2 + later)).Nodup := by
    rw [List.nodup_cons]
    constructor
    · intro member
      obtain ⟨later, _, same⟩ := List.mem_map.mp member
      exact suffixed_ne base _ same
    · refine List.Nodup.map ?_ List.nodup_range
      intro left right same
      have suffix := suffixed_inj same
      omega
  have included : (base :: (List.range names.length).map fun later =>
      suffixed base (2 + later)) ⊆ names := by
    intro name member
    rcases List.mem_cons.mp member with rfl | member
    · exact own
    · obtain ⟨later, bound, rfl⟩ := List.mem_map.mp member
      exact suffixes later (List.mem_range.mp bound)
  have bound := (List.subperm_of_subset distinct included).length_le
  simp only [List.length_cons, List.length_map, List.length_range] at bound
  omega

theorem freeName_pos {names : List String} {base : String} {fuel suffix : Nat} {name : String}
    (named : 0 < name.length) : 0 < (freeName names base fuel suffix name).length := by
  induction fuel generalizing suffix name with
  | zero => exact named
  | succ fuel ih =>
      rw [freeName]
      split
      · refine ih ?_
        simp only [String.length_append]
        have dash : "-".length = 1 := rfl
        omega
      · exact named

theorem givenName_pos (index : Nat) (item : ApiKeyItem) : 0 < (givenName index item).length := by
  have numbered : 0 < ("key-" ++ toString index).length := by
    rw [String.length_append]
    have text : "key-".length = 4 := rfl
    omega
  cases item with
  | string key => exact numbered
  | object setting =>
      rw [givenName]
      split
      · exact numbered
      · split
        · exact numbered
        · rename_i filled
          rw [Nat.pos_iff_ne_zero]
          simpa [String.length_eq_zero_iff] using filled

def namesFrom (names : List String) (index : Nat) : List ApiKeyItem → List String
  | [] => []
  | item :: rest =>
      uniqueName names (givenName index item) ::
        namesFrom (uniqueName names (givenName index item) :: names) (index + 1) rest

def assignedNames (items : List ApiKeyItem) : List String := namesFrom [] 1 items

theorem namesFrom_distinct (names : List String) (index : Nat) (items : List ApiKeyItem) :
    (∀ name ∈ namesFrom names index items, name ∉ names) ∧
      (namesFrom names index items).Nodup := by
  induction items generalizing names index with
  | nil => exact ⟨fun _ member => absurd member List.not_mem_nil, List.nodup_nil⟩
  | cons item rest ih =>
      obtain ⟨fresh, distinct⟩ := ih (uniqueName names (givenName index item) :: names) (index + 1)
      constructor
      · intro name member taken
        rcases List.mem_cons.mp member with rfl | later
        · exact uniqueName_fresh names _ taken
        · exact fresh name later (List.mem_cons_of_mem _ taken)
      · rw [namesFrom, List.nodup_cons]
        exact ⟨fun member => fresh _ member List.mem_cons_self, distinct⟩

end Names

section Keys

def Scoped (item : ApiKeyItem) : Prop := configuredScopes item ≠ [] ∧ "" ∉ configuredScopes item

instance (item : ApiKeyItem) : Decidable (Scoped item) := inferInstanceAs (Decidable (_ ∧ _))

def keyRecords (names : List String) (index : Nat) (items : List ApiKeyItem) :
    List ApiKeyValues :=
  List.zipWith apiKeyValues (namesFrom names index items) items

theorem keyRecords_cons (names : List String) (index : Nat) (item : ApiKeyItem)
    (rest : List ApiKeyItem) : keyRecords names index (item :: rest) =
      apiKeyValues (uniqueName names (givenName index item)) item ::
        keyRecords (uniqueName names (givenName index item) :: names) (index + 1) rest := rfl

theorem apiKeyValues_valid {name : String} {item : ApiKeyItem} (named : 0 < name.length)
    (keyed : item.key ≠ "") :
    (apiKeyValues name item).valid = true ↔ name.length ≤ 200 ∧ Scoped item := by
  have scopes : (configuredScopes item).all (· != "") = true ↔ "" ∉ configuredScopes item := by
    rw [List.all_eq_true]
    constructor
    · intro filled member
      simpa using filled "" member
    · intro absent scope member
      rw [bne_iff_ne]
      rintro rfl
      exact absent member
  have given : (configuredScopes item).isEmpty = false ↔ configuredScopes item ≠ [] := by simp
  simp only [ApiKeyValues.valid, Bool.and_eq_true, decide_eq_true_eq, bne_iff_ne, Bool.not_eq_true']
  simp only [apiKeyValues, scopes, given, Scoped]
  tauto

theorem apiKeysFrom_ok {names keys : List String} {index : Nat} {items : List ApiKeyItem}
    {configs : List ApiKeyConfig} : apiKeysFrom names keys index items = .ok configs ↔
      configs.map Subtype.val = keyRecords names index items ∧
        (∀ item ∈ items, item.key ∉ keys) ∧ (items.map ApiKeyItem.key).Nodup := by
  induction items generalizing names keys index configs with
  | nil =>
      constructor
      · intro made
        cases made
        exact ⟨rfl, fun _ member => absurd member List.not_mem_nil, List.nodup_nil⟩
      · rintro ⟨none, _, _⟩
        rw [List.map_eq_nil_iff.mp none]
        rfl
  | cons item rest ih =>
      rw [keyRecords_cons, List.map_cons, List.nodup_cons]
      constructor
      · intro made
        obtain ⟨config, parsed, made⟩ := bind_returns made
        have values := apiKeyConfig_ok.mp parsed
        have key : config.1.apiKey = item.key := by rw [values]; rfl
        -- `seen_keys` is asked after the record of the key was built.
        split at made
        · cases made
        · rename_i fresh
          obtain ⟨later, built, made⟩ := bind_returns made
          cases made
          obtain ⟨records, absent, distinct⟩ := ih.mp built
          rw [key] at fresh absent
          refine ⟨by rw [List.map_cons, values, records], ?_, ?_, distinct⟩
          · intro other member
            rcases List.mem_cons.mp member with rfl | member
            · exact fresh
            · exact fun taken => absent other member (List.mem_cons_of_mem _ taken)
          · intro member
            obtain ⟨other, inRest, same⟩ := List.mem_map.mp member
            exact absent other inRest (by rw [same]; exact List.mem_cons_self)
      · rintro ⟨records, absent, alone, distinct⟩
        cases configs with
        | nil => cases records
        | cons config later =>
            rw [List.map_cons, List.cons.injEq] at records
            have key : config.1.apiKey = item.key := by rw [records.1]; rfl
            have fresh : config.1.apiKey ∉ keys := by
              rw [key]
              exact absent item List.mem_cons_self
            have others : ∀ other ∈ rest, other.key ∉ config.1.apiKey :: keys := by
              intro other member taken
              rcases List.mem_cons.mp taken with same | taken
              · rw [← key, ← same] at alone
                exact alone (List.mem_map_of_mem member)
              · exact absent other (List.mem_cons_of_mem _ member) taken
            have built := ih.mpr ⟨records.2, others, distinct⟩
            simp only [apiKeysFrom, Bind.bind, Except.bind, apiKeyConfig_ok.mpr records.1,
              if_neg fresh, built, pure, Except.pure]

theorem records_exist {values : List ApiKeyValues} :
    (∃ configs : List ApiKeyConfig, configs.map Subtype.val = values) ↔
      ∀ value ∈ values, value.valid = true := by
  constructor
  · rintro ⟨configs, rfl⟩ value member
    obtain ⟨config, _, rfl⟩ := List.mem_map.mp member
    exact config.2
  · intro valid
    induction values with
    | nil => exact ⟨[], rfl⟩
    | cons value rest ih =>
        obtain ⟨own, others⟩ := List.forall_mem_cons.mp valid
        obtain ⟨configs, built⟩ := ih others
        exact ⟨⟨value, own⟩ :: configs, by rw [List.map_cons, built]⟩

theorem keyRecords_valid {names : List String} {index : Nat} {items : List ApiKeyItem}
    (keyed : ∀ item ∈ items, item.key ≠ "") :
    (∀ value ∈ keyRecords names index items, value.valid = true) ↔
      (∀ name ∈ namesFrom names index items, name.length ≤ 200) ∧ ∀ item ∈ items, Scoped item := by
  induction items generalizing names index with
  | nil => simp [keyRecords, namesFrom]
  | cons item rest ih =>
      have named : 0 < (uniqueName names (givenName index item)).length :=
        freeName_pos (givenName_pos index item)
      rw [keyRecords_cons, List.forall_mem_cons, namesFrom, List.forall_mem_cons,
        List.forall_mem_cons, apiKeyValues_valid named (keyed item List.mem_cons_self),
        ih fun other member => keyed other (List.mem_cons_of_mem _ member)]
      tauto

end Keys

section Access

def access (item : ApiKeyItem) : List String × Bool :=
  (configuredScopes item, configuredEnabled item)

def registryAccess (registry : ApiKeyRegistry) (key : String) : Option (List String × Bool) :=
  (Table.find registry key).map fun entry => (entry.scopes, entry.enabled)

theorem effective_distinct {items : List ApiKeyItem} {key : String} {item : ApiKeyItem}
    (distinct : (items.map ApiKeyItem.key).Nodup) :
    effective items key = some item ↔ item ∈ items ∧ item.key = key := by
  constructor
  · intro found
    refine ⟨List.mem_reverse.mp (List.mem_of_find?_eq_some found), ?_⟩
    simpa using List.find?_some found
  · rintro ⟨member, named⟩
    cases found : effective items key with
    | none =>
        have absent := List.find?_eq_none.mp found item (List.mem_reverse.mpr member)
        exact absurd (decide_eq_true named) absent
    | some other =>
        have inItems : other ∈ items := List.mem_reverse.mp (List.mem_of_find?_eq_some found)
        have same : other.key = key := by simpa using List.find?_some found
        have equal := List.inj_on_of_nodup_map distinct inItems member (same.trans named.symm)
        rw [equal]

/-- Where no key has two items, their order does not matter. -/
theorem effective_access {left right : List ApiKeyItem}
    (same : (left.map fun item => (item.key, access item)).Perm
      (right.map fun item => (item.key, access item)))
    (distinct : (right.map ApiKeyItem.key).Nodup) (key : String) :
    (effective left key).map access = (effective right key).map access := by
  have keys (items : List ApiKeyItem) : (items.map fun item => (item.key, access item)).map
      Prod.fst = items.map ApiKeyItem.key := by
    rw [List.map_map]
    rfl
  have leftDistinct : (left.map ApiKeyItem.key).Nodup := by
    have permuted := same.map Prod.fst
    rw [keys, keys] at permuted
    exact permuted.nodup_iff.mpr distinct
  have member {items : List ApiKeyItem} (once : (items.map ApiKeyItem.key).Nodup)
      (found : List String × Bool) : (effective items key).map access = some found ↔
        (key, found) ∈ items.map fun item => (item.key, access item) := by
    simp only [Option.map_eq_some_iff, effective_distinct once, List.mem_map, Prod.mk.injEq,
      and_assoc]
  ext found
  rw [member leftDistinct, member distinct, same.mem_iff]

theorem load_access {items : List ApiKeyItem} (keyed : ∀ item ∈ items, item.key ≠ "")
    (key : String) : registryAccess (ApiKeyRegistry.load items) key =
      ((effective items key).map access).map fun found =>
        (if found.1.isEmpty then ["*"] else found.1, found.2) := by
  rw [registryAccess, load_find keyed]
  cases found : effective items key with
  | none => rfl
  | some item =>
      have member : item ∈ items := List.mem_reverse.mp (List.mem_of_find?_eq_some found)
      obtain ⟨entry, made, _⟩ := entryOf_key (keyed item member)
      obtain ⟨enabled, scopes⟩ := entry_scopes made
      simp only [Option.bind_some, made, Option.map_some, access, enabled, scopes]

theorem authorize_access {left right : ApiKeyRegistry} {key : String}
    (same : registryAccess left key = registryAccess right key) (required : String) :
    (left.authorize (some key) required).isSome = (right.authorize (some key) required).isSome := by
  simp only [registryAccess] at same
  simp only [ApiKeyRegistry.authorize, ApiKeyRegistry.authenticate]
  by_cases empty : key = ""
  · simp only [if_pos empty]
  · simp only [if_neg empty]
    cases first : Table.find left key with
    | none =>
        rw [first, Option.map_none, eq_comm, Option.map_eq_none_iff] at same
        rw [same]
    | some entry =>
        rw [first, Option.map_some, eq_comm, Option.map_eq_some_iff] at same
        obtain ⟨other, second, equal⟩ := same
        obtain ⟨scopes, enabled⟩ := Prod.mk.inj equal
        rw [second]
        by_cases on : entry.enabled = true
        · have scope : other.hasScope required = entry.hasScope required := by
            simp only [ApiKeyEntry.hasScope, scopes, enabled]
          simp only [enabled, on, if_true, scope]
          by_cases granted : entry.hasScope required = true
          · simp only [if_pos granted, Option.isSome_some]
          · simp only [if_neg granted]
        · simp only [enabled, if_neg on]

theorem apiKeyToSetting_access (isDigit : Char → Bool) (config : ApiKeyConfig) :
    access (apiKeyToSetting isDigit config) = (config.1.scopes, config.1.enabled) := by
  unfold apiKeyToSetting
  split
  · rename_i standard
    simp only [Bool.and_eq_true, beq_iff_eq] at standard
    simp only [access, configuredScopes, configuredEnabled, standard.1.2, standard.2]
  · rfl

theorem keyRecords_access (names : List String) (index : Nat) (items : List ApiKeyItem) :
    (keyRecords names index items).map (fun values =>
        (values.apiKey, values.scopes, values.enabled)) =
      items.map fun item => (item.key, access item) := by
  induction items generalizing names index with
  | nil => rfl
  | cons item rest ih => rw [keyRecords_cons, List.map_cons, List.map_cons, ih]; rfl

theorem listed_access {isDigit : Char → Bool} {collation : String → String → Bool}
    {rows : Rows Channels} {items : List ApiKeyItem}
    (records : rows.apiKeys.map Subtype.val = keyRecords [] 1 items) :
    (((PlatformConfigs.list isDigit collation rows).auth.getD []).map fun item =>
      (item.key, access item)).Perm (items.map fun item => (item.key, access item)) := by
  have listed : (PlatformConfigs.list isDigit collation rows).auth.getD [] =
      (rows.apiKeys.insertionSort fun left right =>
        collation left.1.name right.1.name).map (apiKeyToSetting isDigit) := by
    simp only [PlatformConfigs.list]
    cases rows.apiKeys with
    | nil => rfl
    | cons config rest => rfl
  rw [listed, List.map_map, ← keyRecords_access [] 1, ← records, List.map_map]
  have sorted := List.perm_insertionSort (fun left right : ApiKeyConfig =>
    collation left.1.name right.1.name = true) rows.apiKeys
  refine (sorted.map _).trans (List.Perm.of_eq (List.map_congr_left fun config _ => ?_))
  rw [Function.comp_apply, apiKeyToSetting_key, apiKeyToSetting_access]
  rfl

end Access

section Runtime

def bucketRecord (limits : TokenBucketLimits) : TokenBucketConfig where
  capacity := limits.capacity
  fillRate := limits.fillRate

def runtimeRecord (sections : Sections Channels) : RuntimeValues where
  workerPollIntervalSeconds := sections.worker.pollIntervalSeconds
  workerBatchSize := sections.worker.batchSize
  workerLeaseSeconds := sections.worker.leaseSeconds
  workerShutdownTimeoutSeconds := sections.worker.shutdownTimeoutSeconds
  queueGlobalMaxConcurrency := sections.queue.globalMaxConcurrency
  queueRouteLimits := sections.queue.routeTags
  queueCallerLimits := sections.queue.callers
  queueMaxNestedDepth := sections.queue.maxNestedDepth
  queueMaxActiveChildrenPerRoot := sections.queue.maxActiveChildrenPerRoot
  rateLimitEnabled := sections.rateLimit.enabled
  rateLimitDefaultCapacity := sections.rateLimit.default.capacity
  rateLimitDefaultFillRate := sections.rateLimit.default.fillRate
  rateLimitCallerLimits := sections.rateLimit.callers.map fun item => (item.1, bucketRecord item.2)
  configWatcherPollIntervalSeconds := sections.configWatcher.pollIntervalSeconds
  kanbanRequireApiKey := sections.kanban.requireApiKey
  loggingLevel := sections.logging.level
  loggingMaxFileSizeMb := sections.logging.maxFileSizeMb
  loggingRetentionDays := sections.logging.retentionDays
  loggingMaxBodyChars := sections.logging.maxBodyChars
  runLogRetentionDays := sections.retention.logDays
  callbackRetentionDays := sections.retention.callbackDays
  modelCallRetentionDays := sections.retention.modelCallDays

def withSection (given current : RuntimeValues) : RuntimeNamespace → RuntimeValues
  | .worker =>
      { current with
        workerPollIntervalSeconds := given.workerPollIntervalSeconds
        workerBatchSize := given.workerBatchSize
        workerLeaseSeconds := given.workerLeaseSeconds
        workerShutdownTimeoutSeconds := given.workerShutdownTimeoutSeconds }
  | .queue =>
      { current with
        queueGlobalMaxConcurrency := given.queueGlobalMaxConcurrency
        queueRouteLimits := given.queueRouteLimits
        queueCallerLimits := given.queueCallerLimits
        queueMaxNestedDepth := given.queueMaxNestedDepth
        queueMaxActiveChildrenPerRoot := given.queueMaxActiveChildrenPerRoot }
  | .rateLimit =>
      { current with
        rateLimitEnabled := given.rateLimitEnabled
        rateLimitDefaultCapacity := given.rateLimitDefaultCapacity
        rateLimitDefaultFillRate := given.rateLimitDefaultFillRate
        rateLimitCallerLimits := given.rateLimitCallerLimits }
  | .configWatcher =>
      { current with
        configWatcherPollIntervalSeconds := given.configWatcherPollIntervalSeconds }
  | .kanban => { current with kanbanRequireApiKey := given.kanbanRequireApiKey }
  | .logging =>
      { current with
        loggingLevel := given.loggingLevel
        loggingMaxFileSizeMb := given.loggingMaxFileSizeMb
        loggingRetentionDays := given.loggingRetentionDays
        loggingMaxBodyChars := given.loggingMaxBodyChars }
  | .retention =>
      { current with
        runLogRetentionDays := given.runLogRetentionDays
        callbackRetentionDays := given.callbackRetentionDays
        modelCallRetentionDays := given.modelCallRetentionDays }

theorem sectionOf_withSection (given current : RuntimeValues)
    (updated namespaced : RuntimeNamespace) :
    sectionOf (withSection given current updated) namespaced =
      if namespaced = updated then sectionOf given namespaced
      else sectionOf current namespaced := by
  cases updated <;> cases namespaced <;> rfl

theorem values_ext {left right : RuntimeValues}
    (same : ∀ namespaced, sectionOf left namespaced = sectionOf right namespaced) :
    left = right := by
  have worker := same .worker
  have queue := same .queue
  have rateLimit := same .rateLimit
  have configWatcher := same .configWatcher
  have kanban := same .kanban
  have logging := same .logging
  have retention := same .retention
  simp only [sectionOf, RuntimeUpdate.worker.injEq, RuntimeUpdate.queue.injEq,
    RuntimeUpdate.rateLimit.injEq, RuntimeUpdate.configWatcher.injEq, RuntimeUpdate.kanban.injEq,
    RuntimeUpdate.logging.injEq, RuntimeUpdate.retention.injEq, Option.some.injEq] at *
  have buckets : Function.Injective fun item : String × TokenBucketConfig =>
      (item.1, bucketOf item.2) := by
    rintro ⟨caller, config⟩ ⟨other, limits⟩ equal
    simpa only [bucketOf, Prod.mk.injEq, TokenBucketLimits.mk.injEq, and_true,
      ← TokenBucketConfig.mk.injEq] using equal
  -- The buckets of the callers are mapped, so their section alone says less.
  have callers := List.map_injective_iff.mpr buckets rateLimit.2.2.2
  cases left
  cases right
  simp only [RuntimeValues.mk.injEq]
  tauto

theorem withSection_valid {given current : RuntimeValues} (givenValid : given.valid = true)
    (currentValid : current.valid = true) (namespaced : RuntimeNamespace) :
    (withSection given current namespaced).valid = true := by
  simp only [RuntimeValues.valid, Bool.and_eq_true] at *
  cases namespaced <;> simp only [withSection] <;> tauto

def PlainBuckets (sections : Sections Channels) : Prop :=
  ∀ item ∈ sections.rateLimit.callers, item.2.extra = []

theorem callerLimits_ok {callers : Dict TokenBucketLimits} {limits : Dict TokenBucketConfig} :
    callerLimits callers = .ok limits ↔ (∀ item ∈ callers, item.2.extra = []) ∧
      limits = callers.map fun item => (item.1, bucketRecord item.2) := by
  induction callers generalizing limits with
  | nil =>
      constructor
      · intro made
        cases made
        exact ⟨fun _ member => absurd member List.not_mem_nil, rfl⟩
      · rintro ⟨_, rfl⟩
        rfl
  | cons item rest ih =>
      rw [List.forall_mem_cons, List.map_cons]
      simp only [callerLimits, tokenBucketConfig, Bind.bind, Except.bind, pure, Except.pure]
      by_cases plain : item.2.extra = []
      · simp only [plain, List.isEmpty_nil, if_true, true_and]
        constructor
        · intro made
          split at made
          · cases made
          · rename_i later built
            cases made
            obtain ⟨others, same⟩ := ih.mp built
            exact ⟨others, by rw [same]; rfl⟩
        · rintro ⟨others, rfl⟩
          rw [ih.mpr ⟨others, rfl⟩]
          rfl
      · have filled : item.2.extra.isEmpty = false := by simpa using plain
        simp [filled, plain]

variable {sections : Sections Channels}

theorem updateRuntime_section {current : RuntimeConfig} {namespaced : RuntimeNamespace}
    (others : namespaced ≠ .rateLimit) :
    updateRuntime current (sectionUpdate sections namespaced) =
      runtimeConfig (withSection (runtimeRecord sections) current.1 namespaced) := by
  cases namespaced with
  | rateLimit => exact absurd rfl others
  | worker => rfl
  | queue => rfl
  | configWatcher => rfl
  | kanban => rfl
  | logging => rfl
  | retention => rfl

theorem updateRuntime_ok {current updated : RuntimeConfig} {namespaced : RuntimeNamespace} :
    updateRuntime current (sectionUpdate sections namespaced) = .ok updated ↔
      (namespaced = .rateLimit → PlainBuckets sections) ∧
        updated.1 = withSection (runtimeRecord sections) current.1 namespaced := by
  by_cases limited : namespaced = .rateLimit
  · subst limited
    simp only [updateRuntime, sectionUpdate, Option.getD_some, forall_const]
    constructor
    · intro made
      cases built : callerLimits sections.rateLimit.callers with
      | error error =>
          rw [built] at made
          cases made
      | ok limits =>
          obtain ⟨plain, rfl⟩ := callerLimits_ok.mp built
          rw [built] at made
          exact ⟨plain, runtimeConfig_ok.mp made⟩
    · rintro ⟨plain, same⟩
      rw [callerLimits_ok.mpr ⟨plain, rfl⟩]
      exact runtimeConfig_ok.mpr same
  · rw [updateRuntime_section limited, runtimeConfig_ok]
    exact (and_iff_right fun same => absurd same limited).symm

theorem runtimeRecord_valid (accepted : sections.valid = true) :
    (runtimeRecord sections).valid = true := by
  have buckets : (runtimeRecord sections).rateLimitCallerLimits.all (fun item =>
      0 < item.2.capacity && 0 ≤ item.2.fillRate) =
        sections.rateLimit.callers.all fun item => item.2.valid := by
    simp only [runtimeRecord, List.all_map]
    rfl
  simp only [Sections.valid, WorkerSection.valid, QueueSection.valid, RateLimitSection.valid,
    TokenBucketLimits.valid, ConfigWatcherSection.valid, LoggingSection.valid,
    RetentionSection.valid, Bool.and_eq_true] at accepted
  simp only [RuntimeValues.valid, Bool.and_eq_true, buckets, TokenBucketLimits.valid]
  simp only [runtimeRecord]
  tauto

/-- Updates by some sections give the record of the settings in these. -/
theorem updateEach_ok (accepted : sections.valid = true) {current final : RuntimeConfig}
    {order : List RuntimeNamespace} :
    updateEach sections current order = .ok final ↔
      (.rateLimit ∈ order → PlainBuckets sections) ∧
        final.1 = order.foldl (withSection (runtimeRecord sections)) current.1 := by
  induction order generalizing current with
  | nil =>
      simp only [updateEach, Except.ok.injEq, List.not_mem_nil, false_implies, true_and,
        List.foldl_nil, Subtype.ext_iff]
      exact eq_comm
  | cons namespaced rest ih =>
      rw [List.mem_cons, List.foldl_cons]
      constructor
      · intro made
        obtain ⟨updated, built, made⟩ := bind_returns made
        obtain ⟨plain, same⟩ := updateRuntime_ok.mp built
        obtain ⟨others, ended⟩ := ih.mp made
        rw [same] at ended
        refine ⟨?_, ended⟩
        rintro (own | later)
        · exact plain own.symm
        · exact others later
      · rintro ⟨plain, ended⟩
        -- Every intermediate record is checked as well, and passes.
        have valid := withSection_valid (runtimeRecord_valid accepted) current.2 namespaced
        have built : updateRuntime current (sectionUpdate sections namespaced) = .ok ⟨_, valid⟩ :=
          updateRuntime_ok.mpr ⟨fun own => plain (Or.inl own.symm), rfl⟩
        rw [updateEach, built]
        exact ih.mpr ⟨fun later => plain (Or.inr later), ended⟩

theorem foldl_withSection (given current : RuntimeValues) (order : List RuntimeNamespace)
    (namespaced : RuntimeNamespace) :
    sectionOf (order.foldl (withSection given) current) namespaced =
      if namespaced ∈ order then sectionOf given namespaced else sectionOf current namespaced := by
  induction order generalizing current with
  | nil => rfl
  | cons updated rest ih =>
      rw [List.foldl_cons, ih, sectionOf_withSection]
      by_cases later : namespaced ∈ rest
      · simp [later]
      · simp [later]

theorem updateEach_settings (accepted : sections.valid = true) (order : VisitOrder)
    {runtime : RuntimeConfig} : updateEach sections defaultRuntime order.1 = .ok runtime ↔
      PlainBuckets sections ∧ runtime.1 = runtimeRecord sections := by
  have all : order.1.foldl (withSection (runtimeRecord sections)) defaultRuntime.1 =
      runtimeRecord sections := by
    -- Each section is visited at least once, whatever the order.
    refine values_ext fun namespaced => ?_
    rw [foldl_withSection, if_pos (order.2 namespaced)]
  rw [updateEach_ok accepted, all]
  simp only [order.2, forall_const]

end Runtime

section Records

variable {sections : Sections Channels} {columns : Columns Channels}

structure RecordsOf (sections : Sections Channels) (records : Records Channels) : Prop where
  runtime : records.runtime.1 = runtimeRecord sections
  model : records.model.1 = sections.model
  callback : records.callback.1 = sections.callback
  apiKeys : records.apiKeys.map Subtype.val = keyRecords [] 1 sections.auth

theorem recordsFromSections_ok (accepted : sections.valid = true) {order : VisitOrder}
    {records : Records Channels} : recordsFromSections order sections = .ok records ↔
      RecordsOf sections records ∧ PlainBuckets sections ∧
        (sections.auth.map ApiKeyItem.key).Nodup := by
  have keys {apiKeys : List ApiKeyConfig} : apiKeysFromSection sections.auth = .ok apiKeys ↔
      apiKeys.map Subtype.val = keyRecords [] 1 sections.auth ∧
        (sections.auth.map ApiKeyItem.key).Nodup := by
    rw [apiKeysFromSection, apiKeysFrom_ok]
    simp only [List.not_mem_nil, not_false_eq_true, implies_true, true_and]
  have model {config : ModelConfig} :
      modelFromSection (modelUpdate sections.model) {} = .ok config ↔
        config.1 = sections.model := modelConfig_ok
  have callback {config : PlatformCallbackConfig Channels} :
      callbackFromSection (callbackUpdate sections.callback) {} = .ok config ↔
        config.1 = sections.callback := platformCallbackConfig_ok
  constructor
  · intro made
    obtain ⟨runtime, runtimeBuilt, made⟩ := bind_returns made
    obtain ⟨modelRecord, modelBuilt, made⟩ := bind_returns made
    obtain ⟨callbackRecord, callbackBuilt, made⟩ := bind_returns made
    obtain ⟨apiKeys, keysBuilt, made⟩ := bind_returns made
    cases made
    obtain ⟨plain, same⟩ := (updateEach_settings accepted order).mp runtimeBuilt
    obtain ⟨built, distinct⟩ := keys.mp keysBuilt
    exact ⟨⟨same, model.mp modelBuilt, callback.mp callbackBuilt, built⟩, plain, distinct⟩
  · rintro ⟨made, plain, distinct⟩
    rw [recordsFromSections, (updateEach_settings accepted order).mpr ⟨plain, made.runtime⟩,
      model.mpr made.model, callback.mpr made.callback, keys.mpr ⟨made.apiKeys, distinct⟩]
    rfl

def KeysTaken (columns : Columns Channels) (names : List String) (items : List ApiKeyItem) : Prop :=
  (∀ name ∈ names, columns.text name = true) ∧
    ∀ item ∈ items, columns.text item.key = true ∧ columns.strings (configuredScopes item) = true

theorem keyRecords_names (names : List String) (index : Nat) (items : List ApiKeyItem) :
    (keyRecords names index items).map ApiKeyValues.name = namesFrom names index items := by
  induction items generalizing names index with
  | nil => rfl
  | cons item rest ih => rw [keyRecords_cons, List.map_cons, ih]; rfl

theorem keyRecords_keys (names : List String) (index : Nat) (items : List ApiKeyItem) :
    (keyRecords names index items).map ApiKeyValues.apiKey = items.map ApiKeyItem.key := by
  have same := congrArg (List.map Prod.fst) (keyRecords_access names index items)
  rw [List.map_map, List.map_map] at same
  exact same

omit [Inhabited Channels] in
theorem keyRecords_taken (names : List String) (index : Nat) (items : List ApiKeyItem) :
    (∀ values ∈ keyRecords names index items, columns.text values.name = true ∧
        columns.text values.apiKey = true ∧ columns.strings values.scopes = true) ↔
      KeysTaken columns (namesFrom names index items) items := by
  induction items generalizing names index with
  | nil => simp [keyRecords, namesFrom, KeysTaken]
  | cons item rest ih =>
      rw [keyRecords_cons, List.forall_mem_cons, ih, KeysTaken, KeysTaken, namesFrom,
        List.forall_mem_cons, List.forall_mem_cons]
      simp only [apiKeyValues]
      tauto

omit [Inhabited Channels] in
/-- The constraints of the table hold of what the section gives. -/
theorem storesApiKeys_iff {configs : List ApiKeyConfig} {items : List ApiKeyItem}
    (records : configs.map Subtype.val = keyRecords [] 1 items)
    (distinct : (items.map ApiKeyItem.key).Nodup) :
    storesApiKeys columns configs = true ↔ KeysTaken columns (assignedNames items) items := by
  have names : configs.map (fun config => config.1.name) = assignedNames items := by
    rw [assignedNames, ← keyRecords_names, ← records, List.map_map]
    rfl
  have keys : configs.map (fun config => config.1.apiKey) = items.map ApiKeyItem.key := by
    rw [← keyRecords_keys [] 1, ← records, List.map_map]
    rfl
  have taken : configs.all (storesApiKey columns) = true ↔
      KeysTaken columns (assignedNames items) items := by
    rw [assignedNames, ← keyRecords_taken, ← records, List.forall_mem_map, List.all_eq_true]
    simp only [storesApiKey, Bool.and_eq_true, and_assoc]
  have namesDistinct : (assignedNames items).Nodup := (namesFrom_distinct [] 1 items).2
  simp only [storesApiKeys, names, keys, Bool.and_eq_true, taken, decide_eq_true_eq, namesDistinct,
    distinct, and_true]

end Records

section Results

def limitsFor (rateLimit : RateLimitSection) (caller : String) : Option TokenBucketConfig :=
  if rateLimit.enabled then
    some (((rateLimit.callers.map fun item => (item.1, bucketRecord item.2)).lookup caller).getD
      (bucketRecord rateLimit.default))
  else none

structure SameGoverned (file merged : Sections Channels) : Prop where
  model : merged.model = file.model
  callback : merged.callback = file.callback
  worker : merged.worker = file.worker
  queue : merged.queue = file.queue
  kanban : merged.kanban = file.kanban
  configWatcher : merged.configWatcher = file.configWatcher
  logging : merged.logging = file.logging
  retention : merged.retention = file.retention
  enabled : merged.rateLimit.enabled = file.rateLimit.enabled
  limits : bucketRecord merged.rateLimit.default = bucketRecord file.rateLimit.default
  callers : merged.rateLimit.callers.map (fun item => (item.1, bucketRecord item.2)) =
    file.rateLimit.callers.map fun item => (item.1, bucketRecord item.2)
  apiKeys : ∀ key, registryAccess (ApiKeyRegistry.load merged.auth) key =
    registryAccess (ApiKeyRegistry.load file.auth) key

structure SameProcess (file restarted : PlatformReload.Process Channels Kept) : Prop where
  scheduler : restarted.scheduler = file.scheduler
  modelGateway : restarted.modelGateway = file.modelGateway
  callbackService : restarted.callbackService = file.callbackService
  worker : restarted.worker = file.worker
  rateLimiter : ∀ caller, limitsFor restarted.rateLimiter caller = limitsFor file.rateLimiter caller
  authorized : ∀ key required, (restarted.apiKeys.authorize key required).isSome =
    (file.apiKeys.authorize key required).isSome
  logging : restarted.logging = file.logging
  configWatcher : restarted.configWatcher = file.configWatcher
  kept : restarted.settings.kept = file.settings.kept

/-- The settings initialize an empty store, the repository lists them back, and the process
that starts on the store behaves as the one of the file. -/
def RoundTrips (platform : Platform Channels Kept) : Prop :=
  ∃ rows settings restarted,
    initializeConfigs platform.columns platform.order {} platform.bootstrap.sections =
      .ok (true, rows) ∧
    mergePlatformConfigs platform.bootstrap (platform.listing rows) = .ok settings ∧
    SameGoverned platform.bootstrap.sections settings.sections ∧
    start platform rows = .ok restarted ∧
    SameProcess (createApp platform.bootstrap {}) restarted

/-- What the records and their columns ask of settings beside their own validation. -/
structure Portable (columns : Columns Channels) (sections : Sections Channels) : Prop where
  range : backoffRange sections.model = true
  buckets : PlainBuckets sections
  scopes : ∀ item ∈ sections.auth, Scoped item
  distinct : (sections.auth.map ApiKeyItem.key).Nodup
  named : ∀ name ∈ assignedNames sections.auth, name.length ≤ 200
  runtimeTaken : ∀ config : RuntimeConfig, config.1 = runtimeRecord sections →
    storesRuntime columns config = true
  modelTaken : ∀ config : ModelConfig, config.1 = sections.model → storesModel columns config = true
  callbackTaken : ∀ config : PlatformCallbackConfig Channels, config.1 = sections.callback →
    storesCallback columns config = true
  channelsKept : columns.channels sections.callback.channels = some sections.callback.channels
  keysTaken : KeysTaken columns (assignedNames sections.auth) sections.auth

variable {platform : Platform Channels Kept}

theorem SameGoverned.process {file merged : Sections Channels} {kept : Kept}
    {listing initial : Listing Channels} (same : SameGoverned file merged) :
    SameProcess (createApp ⟨file, kept⟩ initial) (createApp ⟨merged, kept⟩ listing) where
  scheduler := by simp only [createApp, same.queue]
  modelGateway := by simp only [createApp, same.model]
  callbackService := by simp only [createApp, same.callback]
  worker := by simp only [createApp, same.worker]
  rateLimiter caller := by
    simp only [createApp]
    rw [limitsFor, limitsFor, same.enabled, same.limits, same.callers]
  authorized key required := by
    cases key with
    | none => rfl
    | some key => exact authorize_access (same.apiKeys key) required
  logging := by simp only [createApp, same.logging]
  configWatcher := by simp only [createApp, same.configWatcher]
  kept := rfl

section Accepted

variable {sections : Sections Channels} (accepted : sections.valid = true)

include accepted

theorem accepted_keyed : ∀ item ∈ sections.auth, item.key ≠ "" := by
  simp only [Sections.valid, Bool.and_eq_true, List.all_eq_true, bne_iff_ne] at accepted
  tauto

theorem accepted_model : sections.model.valid = true := by
  simp only [Sections.valid, Bool.and_eq_true] at accepted
  tauto

theorem accepted_callback : sections.callback.valid = true := by
  simp only [Sections.valid, Bool.and_eq_true] at accepted
  tauto

end Accepted

theorem merged_complete {rows : Rows Channels} {runtime : RuntimeConfig} {model : ModelConfig}
    {callback : PlatformCallbackConfig Channels} (runtimeRow : rows.runtime = some runtime)
    (modelRow : rows.model = some model) (callbackRow : rows.callback = some callback) :
    mergedSections (platform.listing rows) =
      { auth := (platform.listing rows).auth.getD []
        model := model.1
        callback := callback.1
        worker := workerOf runtime.1
        queue := queueOf runtime.1
        rateLimit := rateLimitOf runtime.1
        kanban := kanbanOf runtime.1
        configWatcher := configWatcherOf runtime.1
        logging := loggingOf runtime.1
        retention := retentionOf runtime.1 } := by
  simp only [mergedSections, Platform.listing, PlatformConfigs.list, runtimeRow, modelRow,
    callbackRow, Option.map_some, Option.getD_some]

/-- The rows that the records of the settings become give the governed values back. -/
theorem listed_governed {sections : Sections Channels} {rows : Rows Channels}
    {runtime : RuntimeConfig} {model : ModelConfig} {callback : PlatformCallbackConfig Channels}
    (accepted : sections.valid = true) (runtimeRow : rows.runtime = some runtime)
    (modelRow : rows.model = some model) (callbackRow : rows.callback = some callback)
    (records : RecordsOf sections ⟨runtime, model, callback, rows.apiKeys⟩)
    (distinct : (sections.auth.map ApiKeyItem.key).Nodup) :
    SameGoverned sections (mergedSections (platform.listing rows)) := by
  have valid : (mergedSections (platform.listing rows)).valid = true := listed_valid _ _ rows
  -- The keys come back in the order of their names, which no registry sees.
  have listed (key : String) : (effective ((platform.listing rows).auth.getD []) key).map access =
      (effective sections.auth key).map access :=
    effective_access (listed_access records.apiKeys) distinct key
  have keyed := accepted_keyed valid
  have complete := @merged_complete Channels Kept _ platform rows runtime model callback runtimeRow
    modelRow callbackRow
  rw [complete] at keyed
  rw [records.runtime, records.model, records.callback] at complete
  rw [complete]
  exact
    { model := rfl
      callback := rfl
      worker := rfl
      queue := rfl
      kanban := rfl
      configWatcher := rfl
      logging := rfl
      retention := rfl
      enabled := rfl
      limits := rfl
      callers := by
        simp only [rateLimitOf, runtimeRecord, List.map_map]
        rfl
      apiKeys := fun key => by
        rw [load_access (accepted_keyed accepted), load_access keyed, listed] }

theorem storedCallback_ok {columns : Columns Channels}
    {config stored : PlatformCallbackConfig Channels} :
    storedCallback columns config = some stored ↔ storesCallback columns config = true ∧
      ∃ channels, columns.channels config.1.channels = some channels ∧
        stored.1 = { config.1 with channels } := by
  unfold storedCallback
  by_cases taken : storesCallback columns config = true
  · simp only [taken, if_true, Option.map_eq_some_iff, true_and, Subtype.ext_iff]
    exact exists_congr fun channels => and_congr_right fun _ => eq_comm
  · simp only [taken, Bool.false_eq_true, if_false, reduceCtorEq, false_and]

theorem initializeConfigs_ok {columns : Columns Channels} {order : VisitOrder}
    {sections : Sections Channels} {rows : Rows Channels} :
    initializeConfigs columns order {} sections = .ok (true, rows) ↔
      ∃ records, recordsFromSections order sections = .ok records ∧
        storedRows columns records = some rows := by
  simp only [initializeConfigs, Bind.bind, Except.bind, pure, Except.pure, Option.isSome_none,
    Bool.false_eq_true, if_false]
  cases recordsFromSections order sections with
  | error error => simp
  | ok records =>
      cases stored : storedRows columns records with
      | none => simp [stored]
      | some rows => simp [stored]

theorem storedRows_ok {columns : Columns Channels} {records : Records Channels}
    {rows : Rows Channels} : storedRows columns records = some rows ↔
      storesRuntime columns records.runtime = true ∧ storesModel columns records.model = true ∧
        storesApiKeys columns records.apiKeys = true ∧
          ∃ callback, storedCallback columns records.callback = some callback ∧
            rows = ⟨some records.runtime, some records.model, some callback, records.apiKeys⟩ := by
  unfold storedRows
  constructor
  · intro stored
    split at stored
    · rename_i taken
      simp only [Bool.and_eq_true] at taken
      obtain ⟨callback, given, rfl⟩ := Option.map_eq_some_iff.mp stored
      exact ⟨taken.1.1, taken.1.2, taken.2, callback, given, rfl⟩
    · cases stored
  · rintro ⟨runtime, model, apiKeys, callback, given, rfl⟩
    simp only [runtime, model, apiKeys, Bool.and_self, if_true, given, Option.map_some]

/-- What goes through has met what the records and their columns ask. -/
theorem RoundTrips.portable (accepted : platform.bootstrap.sections.valid = true)
    (returned : RoundTrips platform) :
    Portable platform.columns platform.bootstrap.sections := by
  obtain ⟨rows, settings, _, initialized, merged, same, _, _⟩ := returned
  obtain ⟨records, built, stored⟩ := initializeConfigs_ok.mp initialized
  obtain ⟨of, plain, distinct⟩ := (recordsFromSections_ok accepted).mp built
  obtain ⟨runtime, model, apiKeys, callback, kept, rfl⟩ := storedRows_ok.mp stored
  obtain ⟨taken, channels, given, read⟩ := storedCallback_ok.mp kept
  have values := records_exist.mp ⟨_, of.apiKeys⟩
  obtain ⟨named, scopes⟩ := (keyRecords_valid (accepted_keyed accepted)).mp values
  have merges : settings.sections.callback = callback.1 := by
    unfold mergePlatformConfigs at merged
    split at merged
    · cases merged
      rfl
    · cases merged
  -- What the column reads back is what was merged, so the column kept the channels.
  have returns : channels = platform.bootstrap.sections.callback.channels := by
    have equal := congrArg CallbackSection.channels (merges.symm.trans same.callback)
    rw [read] at equal
    exact equal
  refine ⟨?_, plain, scopes, distinct, named, ?_, ?_, ?_, ?_, ?_⟩
  · rw [← of.model]
    exact records.model.2.2
  · intro config equal
    rw [Subtype.ext (equal.trans of.runtime.symm)]
    exact runtime
  · intro config equal
    rw [Subtype.ext (equal.trans of.model.symm)]
    exact model
  · intro config equal
    rw [Subtype.ext (equal.trans of.callback.symm)]
    exact taken
  · rw [of.callback, returns] at given
    exact given
  · exact (storesApiKeys_iff of.apiKeys distinct).mp apiKeys

/-- The records of the settings are built, and the empty store takes them as they are. -/
theorem Portable.initialized (accepted : platform.bootstrap.sections.valid = true)
    (portable : Portable platform.columns platform.bootstrap.sections) :
    ∃ (runtime : RuntimeConfig) (model : ModelConfig) (callback : PlatformCallbackConfig Channels)
      (apiKeys : List ApiKeyConfig),
      initializeConfigs platform.columns platform.order {} platform.bootstrap.sections =
          .ok (true, ⟨some runtime, some model, some callback, apiKeys⟩) ∧
        RecordsOf platform.bootstrap.sections ⟨runtime, model, callback, apiKeys⟩ := by
  obtain ⟨apiKeys, keys⟩ := records_exist.mpr
    ((keyRecords_valid (accepted_keyed accepted)).mpr ⟨portable.named, portable.scopes⟩)
  obtain ⟨runtime, runtimeOf⟩ : ∃ config : RuntimeConfig,
    config.1 = runtimeRecord platform.bootstrap.sections := ⟨⟨_, runtimeRecord_valid accepted⟩, rfl⟩
  obtain ⟨model, modelOf⟩ : ∃ config : ModelConfig, config.1 = platform.bootstrap.sections.model :=
    ⟨⟨_, accepted_model accepted, portable.range⟩, rfl⟩
  obtain ⟨callback, callbackOf⟩ : ∃ config : PlatformCallbackConfig Channels,
    config.1 = platform.bootstrap.sections.callback := ⟨⟨_, accepted_callback accepted⟩, rfl⟩
  have records : RecordsOf platform.bootstrap.sections ⟨runtime, model, callback, apiKeys⟩ :=
    ⟨runtimeOf, modelOf, callbackOf, keys⟩
  have channels : platform.columns.channels callback.1.channels = some callback.1.channels := by
    rw [callbackOf]
    exact portable.channelsKept
  have stored : storedCallback platform.columns callback = some callback :=
    storedCallback_ok.mpr ⟨portable.callbackTaken callback callbackOf, _, channels, rfl⟩
  have built := (@recordsFromSections_ok Channels _ _ accepted platform.order
    ⟨runtime, model, callback, apiKeys⟩).mpr ⟨records, portable.buckets, portable.distinct⟩
  refine ⟨runtime, model, callback, apiKeys, initializeConfigs_ok.mpr ⟨_, built, ?_⟩, records⟩
  exact storedRows_ok.mpr ⟨portable.runtimeTaken runtime runtimeOf,
    portable.modelTaken model modelOf, (storesApiKeys_iff keys portable.distinct).mpr
      portable.keysTaken, callback, stored, rfl⟩

theorem Portable.roundTrips (accepted : platform.bootstrap.sections.valid = true)
    (portable : Portable platform.columns platform.bootstrap.sections) : RoundTrips platform := by
  obtain ⟨runtime, model, callback, apiKeys, written, records⟩ := portable.initialized accepted
  have same := @listed_governed Channels Kept _ platform _
    ⟨some runtime, some model, some callback, apiKeys⟩ runtime model callback accepted rfl rfl rfl
    records portable.distinct
  have merges := @mergePlatformConfigs_valid Channels Kept _ platform _
    (listed_valid platform.isDigit platform.collation
      ⟨some runtime, some model, some callback, apiKeys⟩)
  have starts := @start_complete Channels Kept _ platform
    ⟨some runtime, some model, some callback, apiKeys⟩ rfl rfl rfl
  exact ⟨_, _, _, written, merges, same, starts, same.process⟩

/-- Settings that their own validation accepts go through the database and back exactly where
they meet what only the records and their columns ask. -/
theorem platform_round_trip_iff (platform : Platform Channels Kept)
    (accepted : platform.bootstrap.sections.valid = true) :
    RoundTrips platform ↔ Portable platform.columns platform.bootstrap.sections :=
  ⟨fun returned => returned.portable accepted, fun portable => portable.roundTrips accepted⟩

def mixed : Platform Unit Unit :=
  { plain with
    bootstrap :=
      { sections :=
          { auth :=
              [.string "first",
                .object { key := "second", name := some "key-1",
                          scopes := some (.text "runs, admin") },
                .object { key := "third", enabled := some false }]
            queue := { globalMaxConcurrency := 4, callers := [("team", 2)] }
            rateLimit := { callers := [("team", { capacity := 5, fillRate := 1 })] } }
        kept := () } }

theorem mixed_round_trips : assignedNames mixed.bootstrap.sections.auth =
      ["key-1", "key-1-2", "key-3"] ∧ RoundTrips mixed := by
  refine ⟨by decide +kernel, (platform_round_trip_iff mixed (by decide +kernel)).mpr ?_⟩
  exact
    { range := by decide +kernel
      buckets := by
        intro item member
        rw [List.mem_singleton.mp member]
      scopes := by decide +kernel
      distinct := by decide +kernel
      named := by decide +kernel
      runtimeTaken := fun config _ => by simp [storesRuntime, mixed, plain]
      modelTaken := fun config _ => by simp [storesModel, mixed, plain]
      callbackTaken := fun config _ => by simp [storesCallback, mixed, plain]
      channelsKept := rfl
      keysTaken := ⟨fun _ _ => rfl, fun _ _ => ⟨rfl, rfl⟩⟩ }

def slowBackoff : Platform Unit Unit :=
  { plain with
    bootstrap := { sections := { model := { initialBackoffSeconds := 60 } }, kept := () } }

theorem slowBackoff_not_initialized : slowBackoff.bootstrap.sections.valid = true ∧
    (initializeConfigs slowBackoff.columns slowBackoff.order {}
      slowBackoff.bootstrap.sections).isOk = false ∧ ¬ RoundTrips slowBackoff := by
  have accepted : slowBackoff.bootstrap.sections.valid = true := by decide +kernel
  refine ⟨accepted, by decide +kernel, fun returned => ?_⟩
  have range := (returned.portable accepted).range
  revert range
  decide +kernel

end Results

end AgentTaskPlatform.PlatformRoundTrip
