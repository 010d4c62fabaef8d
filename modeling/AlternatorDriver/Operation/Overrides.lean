import AlternatorDriver.Operation.Lifecycle

/-!
# Overrides of one operation

An override reaches the hooks through what it stores in the configuration of its operation.
It acts as if the client had been built with the overridden settings in the first place, for
this operation and in all of its attempts. Of several overrides of one setting the last counts.
-/

namespace AlternatorDriver

open Foundation

/-- The settings of a client that has the overridden ones. -/
def RequestSettings.override (settings : RequestSettings)
    (configOverride : AlternatorOperationBuilder) : RequestSettings :=
  { settings with
    requestCompression := configOverride.requestCompression.or settings.requestCompression
    responseCompression := configOverride.responseCompression.or settings.responseCompression }

/-- What an override stores. -/
def InterceptorState.override (state : InterceptorState)
    (configOverride : AlternatorOperationBuilder) : InterceptorState :=
  { state with
    requestCompressionStore := configOverride.requestCompression.or state.requestCompressionStore
    responseCompressionStore :=
      configOverride.responseCompression.or state.responseCompressionStore }

theorem foldl_alternatorConfigOverride (interceptors : List OverrideInterceptor)
    (configOverride : AlternatorOperationBuilder) (state : InterceptorState) :
    (alternatorConfigOverride interceptors configOverride).foldl
        OverrideInterceptor.modifyBeforeSerialization state =
      (interceptors.foldl OverrideInterceptor.modifyBeforeSerialization state).override
        configOverride := by
  obtain ⟨request, response⟩ := configOverride
  cases request <;> cases response <;>
    simp only [alternatorConfigOverride, List.foldl_append, List.foldl_cons, List.foldl_nil,
      OverrideInterceptor.modifyBeforeSerialization, InterceptorState.override, Option.none_or,
      Option.some_or]

/-- The overrides are stored one after the other. -/
theorem storedBeforeSerialization_eq (hasQueryPlan : Bool)
    (overrides : List AlternatorOperationBuilder) :
    storedBeforeSerialization hasQueryPlan overrides =
      overrides.foldl InterceptorState.override ⟨none, none, none, hasQueryPlan⟩ := by
  have stored (interceptors : List OverrideInterceptor) (state : InterceptorState) :
      (overrides.foldl alternatorConfigOverride interceptors).foldl
          OverrideInterceptor.modifyBeforeSerialization state =
        overrides.foldl InterceptorState.override
          (interceptors.foldl OverrideInterceptor.modifyBeforeSerialization state) := by
    induction overrides generalizing interceptors with
    | nil => rfl
    | cons configOverride overrides ih =>
        rw [List.foldl_cons, ih, foldl_alternatorConfigOverride, List.foldl_cons]
  exact stored [] _

/-- The hooks of two interceptors act alike, each with its own stores: they agree on what is
in force, and on everything that is not overridden. -/
structure ActAlike (i : DriverInterceptor) (s : InterceptorState) (j : DriverInterceptor)
    (t : InterceptorState) : Prop where
  transmitter : i.toAlternatorInterceptor = j.toAlternatorInterceptor
  request : s.requestCompressionStore.getD i.requestCompression =
    t.requestCompressionStore.getD j.requestCompression
  response : s.responseCompressionStore.getD i.responseCompression =
    t.responseCompressionStore.getD j.responseCompression
  preserve : s.preserveAuthHeadersStore = t.preserveAuthHeadersStore
  plan : s.hasQueryPlan = t.hasQueryPlan

theorem getD_map_getD {α β : Type} (f : α → β) (stored : Option α) (default : α) :
    (stored.map f).getD (f default) = f (stored.getD default) := by
  cases stored <;> rfl

namespace ActAlike

variable {Url : Type} {urls : UrlLibrary Url} {acceptsUri : Text → Bool} {flate2 : Flate2}
  {library : AsyncLibrary} {i j : DriverInterceptor} {s t : InterceptorState}

theorem modifyBeforeRetryLoop (alike : ActAlike i s j t) (request : Request) :
    i.modifyBeforeRetryLoop flate2 s request = j.modifyBeforeRetryLoop flate2 t request := by
  simp only [DriverInterceptor.modifyBeforeRetryLoop, CompressionInterceptor.modifyBeforeRetryLoop,
    getD_map_getD, alike.request, alike.response]

theorem deserialized (alike : ActAlike i s j t) (response : Response (List BodyEvent)) :
    i.deserialized library s response = j.deserialized library t response := by
  simp only [DriverInterceptor.deserialized, modifyBeforeDeserialization, getD_map_getD,
    alike.response]

theorem exchange (alike : ActAlike i s j t) (env : AttemptEnvironment Url) (uri : Text)
    (headers : Headers) (body : SdkBody) :
    i.exchange library s env uri headers body = j.exchange library t env uri headers body := by
  simp only [DriverInterceptor.exchange, DriverInterceptor.transmitted, alike.transmitter,
    alike.preserve, alike.deserialized]

theorem readAfterSigning (alike : ActAlike i s j t) (headers : Headers) :
    ActAlike i (DriverInterceptor.readAfterSigning s headers) j
      (DriverInterceptor.readAfterSigning t headers) := by
  simp only [DriverInterceptor.readAfterSigning]
  split
  · exact { alike with preserve := rfl }
  · exact alike

theorem attempt (alike : ActAlike i s j t) (request : Request) (env : AttemptEnvironment Url) :
    (i.attempt urls acceptsUri library s request env).1 =
        (j.attempt urls acceptsUri library t request env).1 ∧
      ActAlike i (i.attempt urls acceptsUri library s request env).2 j
        (j.attempt urls acceptsUri library t request env).2 := by
  simp only [DriverInterceptor.attempt, DriverInterceptor.modifyBeforeSigning, alike.plan]
  split
  · exact ⟨rfl, alike⟩
  · next uri routed =>
    have signed := alike.readAfterSigning (env.sign uri request.headers)
    exact ⟨signed.exchange env uri _ _, signed⟩

theorem attempts (alike : ActAlike i s j t) (request : Request)
    (envs : List (AttemptEnvironment Url)) :
    i.attempts urls acceptsUri library s request envs =
      j.attempts urls acceptsUri library t request envs := by
  induction envs generalizing s t with
  | nil => rfl
  | cons env envs ih =>
      obtain ⟨record, after⟩ := @attempt _ urls acceptsUri library _ _ _ _ alike request env
      rw [DriverInterceptor.attempts, DriverInterceptor.attempts, record, ih after]

end ActAlike

/-- A stored override and a client that is built with it act alike. -/
theorem actAlike_override (settings : RequestSettings) (overrides : List AlternatorOperationBuilder)
    (plan : Bool) :
    ActAlike settings.interceptor
      (overrides.foldl InterceptorState.override ⟨none, none, none, plan⟩)
      (overrides.foldl RequestSettings.override settings).interceptor ⟨none, none, none, plan⟩ := by
  induction overrides using List.reverseRecOn with
  | nil => exact ⟨rfl, rfl, rfl, rfl, rfl⟩
  | append_singleton overrides configOverride ih =>
      rw [List.foldl_concat, List.foldl_concat]
      refine ⟨ih.transmitter, ?_, ?_, ih.preserve, ih.plan⟩
      · have before := ih.request
        cases overridden : configOverride.requestCompression with
        | none => simpa [InterceptorState.override, RequestSettings.override,
            RequestSettings.interceptor, overridden] using before
        | some compression => simp [InterceptorState.override, RequestSettings.override,
            RequestSettings.interceptor, overridden]
      · have before := ih.response
        cases overridden : configOverride.responseCompression with
        | none => simpa [InterceptorState.override, RequestSettings.override,
            RequestSettings.interceptor, overridden] using before
        | some compression => simp [InterceptorState.override, RequestSettings.override,
            RequestSettings.interceptor, overridden]

/-- An operation with overrides goes like one without, on a client that was built with the
overridden settings: every attempt sends the same request and ends with the same result,
whatever the signer, the plan and the network do. -/
theorem overrides_act_as_settings {Url : Type} (urls : UrlLibrary Url) (acceptsUri : Text → Bool)
    (flate2 : Flate2) (library : AsyncLibrary) (settings : RequestSettings) (hasQueryPlan : Bool)
    (overrides : List AlternatorOperationBuilder) (request : Request)
    (envs : List (AttemptEnvironment Url)) :
    operation urls acceptsUri flate2 library settings hasQueryPlan overrides request envs =
      operation urls acceptsUri flate2 library (overrides.foldl RequestSettings.override settings)
        hasQueryPlan [] request envs := by
  have alike := actAlike_override settings overrides hasQueryPlan
  simp only [operation, preparedRequest, storedBeforeSerialization_eq, List.foldl_nil]
  rw [alike.modifyBeforeRetryLoop request]
  exact alike.attempts _ envs

end AlternatorDriver
