import AlternatorDriver.Compression.Request
import AlternatorDriver.Foundation.Reader

/-!
# The decompression of responses

A response body is read through one decoder for each of its encodings, the last one
first. Every decoder is drained to the end of its input and followed by a size limit, so
each stage sees the complete output of the stage before, or fails.

The decoders, the limit of a prefix, and the reader of a stream of frames come from
libraries. They are parameters here, with what is relied on.
-/

namespace AlternatorDriver

open Foundation

inductive ReadError where
  /-- `DecompressedResponseSizeLimitExceeded` -/
  | sizeLimitExceeded (limit : Nat)
  | other (message : Text)
  deriving DecidableEq

/-- `ResponseEncodingLayerLimitExceeded` -/
structure EncodingLayerLimitExceeded where
  actual : Nat
  maximum : Nat
  deriving DecidableEq

abbrev AsyncRead := Reader UInt8 ReadError

/-- What a poll of a body returns; after the last event it has ended. -/
inductive BodyEvent where
  | pending
  | data (bytes : Bytes)
  | trailers (headers : Headers)
  | error (e : ReadError)

namespace BodyEvent

/-- The data of a body, if it does not fail. -/
def bytes : List BodyEvent → Option Bytes
  | [] => some []
  | .data first :: rest => (bytes rest).map (first ++ ·)
  | .error _ :: _ => none
  | .pending :: rest | .trailers _ :: rest => bytes rest

/-- The stream of the data frames. -/
def dataStream (body : List BodyEvent) : List BodyEvent :=
  body.filter fun
    | .trailers _ => false
    | _ => true

theorem bytes_dataStream (body : List BodyEvent) : bytes (dataStream body) = bytes body := by
  induction body with
  | nil => rfl
  | cons event rest ih => cases event <;> simp_all [dataStream, bytes]

end BodyEvent

/-- A decoder with its input. Once it has decoded a member, the rest is in its input. -/
structure DecoderInner : Type 1 where
  State : Type
  state : State
  pollDecode : State → Nat → ReadPoll UInt8 ReadError × State
  pollInput : State → Nat → ReadPoll UInt8 ReadError × State
  decodeFits : ∀ s capacity, (pollDecode s capacity).1.filled.length ≤ capacity
  inputFits : ∀ s capacity, (pollInput s capacity).1.filled.length ≤ capacity

namespace DecoderInner

def decode (d : DecoderInner) (capacity : Nat) : ReadPoll UInt8 ReadError × DecoderInner :=
  ((d.pollDecode d.state capacity).1, { d with state := (d.pollDecode d.state capacity).2 })

/-- The input as a reader of its own. -/
def input (d : DecoderInner) : AsyncRead := ⟨d.State, d.state, d.pollInput, d.inputFits⟩

end DecoderInner

/-- A reader with a limit on what is still to be read from it, `tokio::io::Take`. -/
structure Take : Type 1 where
  State : Type
  state : State
  limit : State → Nat
  inner : State → AsyncRead
  pollRead : State → Nat → ReadPoll UInt8 ReadError × State
  /-- A poll of the inner reader, past the limit. -/
  pollInner : State → Nat → ReadPoll UInt8 ReadError × State
  fits : ∀ s capacity, (pollRead s capacity).1.filled.length ≤ capacity

/-- What the driver takes from other libraries. -/
structure AsyncLibrary : Type 1 where
  streamReader : List BodyEvent → AsyncRead
  take : AsyncRead → Nat → Take
  decoder : ResponseCompressionAlgorithm → AsyncRead → DecoderInner

/-- Drains the input of a decoder that is complete. -/
def DecoderInner.drain (inner : DecoderInner) (s : inner.State) :
    ReadPoll UInt8 ReadError × (inner.State × Bool) :=
  let polled := inner.pollInput s 8192
  match polled.1 with
  | .ready [] => (.ready [], (polled.2, true))
  -- The task is woken at once, so it will be polled again.
  | .ready _ => (.pending, (polled.2, true))
  | result => (result, (polled.2, true))

def completeStagePoll (inner : DecoderInner) (s : inner.State × Bool) (capacity : Nat) :
    ReadPoll UInt8 ReadError × (inner.State × Bool) :=
  if capacity = 0 then (.ready [], s)
  else if s.2 then inner.drain s.1
  else
    let polled := inner.pollDecode s.1 capacity
    match polled.1 with
    | .ready [] => inner.drain polled.2
    | result => (result, (polled.2, false))

/-- Draining hands out nothing. -/
theorem DecoderInner.filled_drain (inner : DecoderInner) (s : inner.State) :
    (inner.drain s).1.filled = [] := by
  unfold drain
  cases polled : (inner.pollInput s 8192).1 with
  | ready bytes => cases bytes <;> simp [polled, ReadPoll.filled]
  | pending => simp [polled, ReadPoll.filled]
  | error e => simp [polled, ReadPoll.filled]

theorem completeStagePoll_fits (inner : DecoderInner) (s : inner.State × Bool) (capacity : Nat) :
    (completeStagePoll inner s capacity).1.filled.length ≤ capacity := by
  have fits := inner.decodeFits s.1 capacity
  unfold completeStagePoll
  split
  · exact Nat.zero_le _
  · split
    · rw [inner.filled_drain]
      exact Nat.zero_le _
    · cases polled : (inner.pollDecode s.1 capacity).1 with
      | ready bytes =>
          cases bytes with
          | nil => simp [polled, inner.filled_drain]
          | cons b bs => simpa [polled] using fits
      | pending => simp [polled, ReadPoll.filled]
      | error e => simp [polled, ReadPoll.filled]

/-- Drains a decoder's complete input before reporting the end, `CompleteStageDecoder`. -/
def completeStageDecoder (inner : DecoderInner) : AsyncRead where
  State := inner.State × Bool
  state := (inner.state, false)
  pollRead := completeStagePoll inner
  fits := completeStagePoll_fits inner

def sizeLimitedPoll (take : Take) (limit : Nat) (s : take.State) (capacity : Nat) :
    ReadPoll UInt8 ReadError × take.State :=
  if 0 < take.limit s ∨ capacity = 0 then take.pollRead s capacity
  else
    -- At its limit the inner reader looks like a truncated response: one more byte tells.
    let polled := take.pollInner s 1
    match polled.1 with
    | .ready [] => (.ready [], polled.2)
    | .ready _ => (.error (.sizeLimitExceeded limit), polled.2)
    | result => (result, polled.2)

theorem sizeLimitedPoll_fits (take : Take) (limit : Nat) (s : take.State) (capacity : Nat) :
    (sizeLimitedPoll take limit s capacity).1.filled.length ≤ capacity := by
  unfold sizeLimitedPoll
  split
  · exact take.fits s capacity
  · cases polled : (take.pollInner s 1).1 with
    | ready bytes => cases bytes <;> simp [polled, ReadPoll.filled]
    | pending => simp [polled, ReadPoll.filled]
    | error e => simp [polled, ReadPoll.filled]

def sizeLimitedReader (take : Take) (limit : Nat) : AsyncRead where
  State := take.State
  state := take.state
  pollRead := sizeLimitedPoll take limit
  fits := sizeLimitedPoll_fits take limit

def validateResponseEncodingLayerCount (count maximum : Nat) :
    Except EncodingLayerLimitExceeded Unit :=
  if count > maximum then .error ⟨count, maximum⟩ else .ok ()

/-- The reader under the decompressed body, whose stream polls it with whatever room there
is in its buffer. The last encoding is decoded first. -/
def wrapDecompressedBody (library : AsyncLibrary) (body : List BodyEvent)
    (encodings : List ResponseCompressionAlgorithm) (maxEncodingLayers maxDecompressedBytes : Nat) :
    Except EncodingLayerLimitExceeded AsyncRead :=
  match validateResponseEncodingLayerCount encodings.length maxEncodingLayers with
  | .error e => .error e
  | .ok () =>
      .ok (encodings.reverse.foldl
        (fun reader algorithm =>
          let decoder := completeStageDecoder (library.decoder algorithm reader)
          sizeLimitedReader (library.take decoder maxDecompressedBytes) maxDecompressedBytes)
        (library.streamReader (BodyEvent.dataStream body)))

section Laws

/-! ## What is relied on -/

open Reader

/-- A poll hands out a piece of the output, and `P` holds of the rest. A decoder that fails
may notice it only in its input. -/
def decodeStep (rest : Content UInt8) (P : Content UInt8 → DecoderInner → Prop)
    (out : Content UInt8) (d : DecoderInner) : Prop :=
  ∀ capacity, 0 < capacity →
    match (d.decode capacity).1 with
    | .pending => P out (d.decode capacity).2
    | .ready [] => out = .clean [] ∧ Delivers rest (d.decode capacity).2.input ∨
        out = .failing ∧ Delivers .failing (d.decode capacity).2.input
    | .ready bytes => out.Begins bytes ∧ P (out.drop bytes) (d.decode capacity).2
    | .error _ => out = .failing

theorem decodeStep_mono (rest : Content UInt8) : Monotone (decodeStep rest) := by
  intro P Q le out d step capacity positive
  have step := step capacity positive
  split at step
  · exact le _ _ step
  · exact step
  · exact ⟨step.1, le _ _ step.2⟩
  · exact step

/-- A decoder hands out its output in finitely many polls of whatever capacities, and
leaves the rest in its input. -/
def Decodes (out rest : Content UInt8) (d : DecoderInner) : Prop :=
  OrderHom.lfp ⟨decodeStep rest, decodeStep_mono rest⟩ out d

theorem decodes_iff {out rest : Content UInt8} {d : DecoderInner} :
    Decodes out rest d ↔ decodeStep rest (fun out d => Decodes out rest d) out d :=
  iff_of_eq (congrFun (congrFun
    (OrderHom.map_lfp ⟨decodeStep rest, decodeStep_mono rest⟩).symm out) d)

theorem Decodes.induct (rest : Content UInt8) (P : Content UInt8 → DecoderInner → Prop)
    (step : ∀ out d, decodeStep rest P out d → P out d) (out : Content UInt8) (d : DecoderInner)
    (decodes : Decodes out rest d) : P out d :=
  OrderHom.lfp_le ⟨decodeStep rest, decodeStep_mono rest⟩ step out d decodes

/-- Up to its limit a `Take` is the reader that it was made of. -/
structure Take.Takes (t : Take) (r : AsyncRead) (n : Nat) : Prop where
  limit_new : t.limit t.state = n
  inner_new : t.inner t.state = r
  pollRead : ∀ s capacity, 0 < t.limit s →
    (t.pollRead s capacity).1 = ((t.inner s).poll (min capacity (t.limit s))).1 ∧
    t.inner (t.pollRead s capacity).2 = ((t.inner s).poll (min capacity (t.limit s))).2 ∧
    t.limit (t.pollRead s capacity).2 =
      t.limit s - ((t.inner s).poll (min capacity (t.limit s))).1.filled.length
  pollInner : ∀ s capacity,
    (t.pollInner s capacity).1 = ((t.inner s).poll capacity).1 ∧
    t.inner (t.pollInner s capacity).2 = ((t.inner s).poll capacity).2 ∧
    t.limit (t.pollInner s capacity).2 = t.limit s

/-- `member` is the decoding of the first member of an input, with what comes after it. A
decoder emits that, however its input is cut into pieces. -/
structure AsyncLibrary.Laws (library : AsyncLibrary)
    (member : ResponseCompressionAlgorithm → Bytes → Option (Bytes × Bytes)) : Prop where
  streamReader : ∀ body,
    Delivers (Content.ofOption (BodyEvent.bytes body)) (library.streamReader body)
  take : ∀ reader limit, (library.take reader limit).Takes reader limit
  valid : ∀ algorithm reader bytes out rest, Delivers (.clean bytes) reader →
    member algorithm bytes = some (out, rest) →
    Decodes (.clean out) (.clean rest) (library.decoder algorithm reader)
  invalid : ∀ algorithm reader bytes, Delivers (.clean bytes) reader →
    member algorithm bytes = none → Decodes .failing .failing (library.decoder algorithm reader)
  broken : ∀ algorithm reader, Delivers .failing reader →
    Decodes .failing .failing (library.decoder algorithm reader)

end Laws

section Drain

/-! ## A stage delivers what its decoder decodes -/

open Reader

variable {d : DecoderInner} {out rest : Content UInt8} {capacity : Nat}

/-- The stage of a decoder that is complete already, or not. -/
def stageAt (d : DecoderInner) (decodingComplete : Bool) : AsyncRead :=
  { completeStageDecoder d with state := (d.state, decodingComplete) }

/-- The decoder after a poll of its input. -/
def DecoderInner.drained (d : DecoderInner) : DecoderInner :=
  { d with state := (d.pollInput d.state 8192).2 }

theorem poll_stageAt_true (positive : 0 < capacity) :
    (stageAt d true).poll capacity =
      ((match (d.input.poll 8192).1 with
        | .ready [] => .ready []
        | .ready _ => .pending
        | result => result), stageAt d.drained true) := by
  have room : capacity ≠ 0 := Nat.ne_of_gt positive
  simp only [poll, stageAt, completeStageDecoder, completeStagePoll, if_neg room, if_true,
    DecoderInner.drain, DecoderInner.input, DecoderInner.drained]
  split <;> rfl

theorem poll_stageAt_false (positive : 0 < capacity) :
    (stageAt d false).poll capacity =
      match (d.decode capacity).1 with
      | .ready [] => (stageAt (d.decode capacity).2 true).poll capacity
      | result => (result, stageAt (d.decode capacity).2 false) := by
  have room : capacity ≠ 0 := Nat.ne_of_gt positive
  simp only [poll, stageAt, completeStageDecoder, completeStagePoll, if_neg room, if_true,
    Bool.false_eq_true, if_false, DecoderInner.decode]
  split <;> rfl

theorem atEnd_stageAt (ended : d.input.AtEnd) : (stageAt d true).AtEnd := by
  refine AtEnd.coinduct (fun r => ∃ d, r = stageAt d true ∧ d.input.AtEnd) ?_ _
    ⟨d, rfl, ended⟩
  rintro _ ⟨d, rfl, ended⟩ capacity positive
  rw [atEnd_iff] at ended
  obtain ⟨empty, later⟩ := ended 8192 (by decide)
  rw [poll_stageAt_true positive, empty]
  exact ⟨rfl, _, rfl, later⟩

theorem delivers_stageAt_true (delivers : Delivers rest d.input) :
    Delivers ((Content.clean []).andThen rest) (stageAt d true) := by
  refine Delivers.induct (fun rest r => ∀ d : DecoderInner, d.input = r →
    Delivers ((Content.clean []).andThen rest) (stageAt d true)) ?_ rest d.input delivers d rfl
  rintro rest _ step d rfl
  have step := step 8192 (by decide)
  rw [delivers_iff]
  intro capacity positive
  rw [poll_stageAt_true positive]
  cases polled : (d.input.poll 8192).1 with
  | pending =>
      rw [polled] at step
      exact step d.drained rfl
  | error e =>
      rw [polled] at step
      rw [show rest = _ from step]
      rfl
  | ready bytes =>
      rw [polled] at step
      cases bytes with
      | nil => 
          rw [step.1]
          exact ⟨rfl, atEnd_stageAt step.2⟩
      | cons b bs =>
          have later := step.2 d.drained rfl
          rw [Content.andThen_drop] at later
          exact later

/-- A stage hands out what its decoder decodes to, if the rest of its input is clean. -/
theorem Decodes.delivers (decodes : Decodes out rest d) :
    Delivers (out.andThen rest) (completeStageDecoder d) := by
  refine Decodes.induct rest (fun out d => Delivers (out.andThen rest) (stageAt d false)) ?_ out d
    decodes
  intro out d step
  rw [delivers_iff]
  intro capacity positive
  have step := step capacity positive
  rw [poll_stageAt_false positive]
  cases polled : (d.decode capacity).1 with
  | pending =>
      rw [polled] at step
      exact step
  | error e =>
      rw [polled] at step
      rw [show out = _ from step]
      rfl
  | ready bytes =>
      rw [polled] at step
      cases bytes with
      | nil =>
          -- The poll that finds the decoder complete goes on to drain its input.
          obtain ⟨rfl, input⟩ | ⟨rfl, input⟩ := step
          · have drained := delivers_stageAt_true input
            rw [delivers_iff] at drained
            exact drained capacity positive
          · have drained := delivers_stageAt_true input
            rw [delivers_iff] at drained
            exact drained capacity positive
      | cons b bs =>
          refine ⟨Content.begins_andThen step.1, ?_⟩
          rw [← Content.drop_andThen]
          exact step.2

end Drain

section Limit

/-! ## A size limit -/

open Reader

variable {take : Take} {reader : AsyncRead} {limit capacity : Nat} {content : Content UInt8}

/-- The limited reader in some state of its `Take`. -/
def limitedAt (take : Take) (limit : Nat) (s : take.State) : AsyncRead :=
  { sizeLimitedReader take limit with state := s }

theorem poll_limitedAt_of_pos (takes : take.Takes reader limit) {s : take.State}
    (remaining : 0 < take.limit s) :
    ∃ s', (limitedAt take limit s).poll capacity =
        (((take.inner s).poll (min capacity (take.limit s))).1, limitedAt take limit s') ∧
      take.inner s' = ((take.inner s).poll (min capacity (take.limit s))).2 ∧
      take.limit s' = take.limit s -
        ((take.inner s).poll (min capacity (take.limit s))).1.filled.length := by
  obtain ⟨same, inner, left⟩ := takes.pollRead s capacity remaining
  refine ⟨_, ?_, inner, left⟩
  rw [← same]
  simp only [poll, limitedAt, sizeLimitedReader, sizeLimitedPoll, remaining, true_or, if_true]

theorem poll_limitedAt_of_eq_zero (takes : take.Takes reader limit) {s : take.State}
    (exhausted : take.limit s = 0) (positive : 0 < capacity) :
    ∃ s', (limitedAt take limit s).poll capacity =
        ((match ((take.inner s).poll 1).1 with
          | .ready [] => .ready []
          | .ready _ => .error (.sizeLimitExceeded limit)
          | result => result), limitedAt take limit s') ∧
      take.inner s' = ((take.inner s).poll 1).2 ∧ take.limit s' = 0 := by
  obtain ⟨same, inner, left⟩ := takes.pollInner s 1
  refine ⟨_, ?_, inner, left.trans exhausted⟩
  have full : ¬ (0 < take.limit s ∨ capacity = 0) := by omega
  rw [← same]
  simp only [poll, limitedAt, sizeLimitedReader, sizeLimitedPoll, if_neg full]
  split <;> rfl

/-- The limited reader ends where the reader does. -/
theorem atEnd_limitedAt (takes : take.Takes reader limit) {s : take.State}
    (ended : (take.inner s).AtEnd) : (limitedAt take limit s).AtEnd := by
  refine AtEnd.coinduct (fun r => ∃ s, r = limitedAt take limit s ∧ (take.inner s).AtEnd) ?_ _
    ⟨s, rfl, ended⟩
  rintro _ ⟨s, rfl, ended⟩ capacity positive
  rw [atEnd_iff] at ended
  obtain exhausted | remaining := Nat.eq_zero_or_pos (take.limit s)
  · obtain ⟨s', polled, inner, -⟩ := poll_limitedAt_of_eq_zero takes exhausted positive
    obtain ⟨empty, later⟩ := ended 1 Nat.one_pos
    rw [polled, empty]
    exact ⟨rfl, s', rfl, inner ▸ later⟩
  · obtain ⟨s', polled, inner, -⟩ :=
      @poll_limitedAt_of_pos take reader limit capacity takes s remaining
    obtain ⟨empty, later⟩ :=
      ended (min capacity (take.limit s)) (Nat.lt_min.mpr ⟨positive, remaining⟩)
    rw [polled, empty]
    exact ⟨rfl, s', rfl, inner ▸ later⟩

/-- A size limit hands out what its reader does, unless that is longer than the limit. -/
theorem delivers_limitedAt (takes : take.Takes reader limit) {s : take.State}
    (delivers : Delivers content (take.inner s)) :
    Delivers (content.limitTo (take.limit s)) (limitedAt take limit s) := by
  refine Delivers.induct (fun content r => ∀ s, take.inner s = r →
    Delivers (content.limitTo (take.limit s)) (limitedAt take limit s)) ?_ content _ delivers s rfl
  rintro content _ step s rfl
  rw [delivers_iff]
  intro capacity positive
  obtain exhausted | remaining := Nat.eq_zero_or_pos (take.limit s)
  · obtain ⟨s', polled, inner, left⟩ := poll_limitedAt_of_eq_zero takes exhausted positive
    have step := step 1 Nat.one_pos
    rw [polled]
    cases probed : ((take.inner s).poll 1).1 with
    | pending =>
        rw [probed] at step
        have later := step s' inner
        rw [left, ← exhausted] at later
        exact later
    | error e =>
        rw [probed] at step
        rw [show content = _ from step]
        rfl
    | ready bytes =>
        rw [probed] at step
        cases bytes with
        | nil =>
            rw [step.1]
            exact ⟨rfl, atEnd_limitedAt takes (inner ▸ step.2)⟩
        | cons b bs =>
            -- There is one more byte, so the content exceeds the limit.
            have begins := step.1
            cases content with
            | failing => rfl
            | clean all =>
                obtain ⟨rest, rfl⟩ := begins
                simp [Content.limitTo, exhausted]
  · obtain ⟨s', polled, inner, left⟩ :=
      @poll_limitedAt_of_pos take reader limit capacity takes s remaining
    have step := step (min capacity (take.limit s)) (Nat.lt_min.mpr ⟨positive, remaining⟩)
    have fits := (take.inner s).fits (take.inner s).state (min capacity (take.limit s))
    rw [polled]
    cases relayed : ((take.inner s).poll (min capacity (take.limit s))).1 with
    | pending =>
        rw [relayed] at step left
        have later := step s' inner
        rw [left] at later
        exact later
    | error e =>
        rw [relayed] at step
        rw [show content = _ from step]
        rfl
    | ready bytes =>
        rw [relayed] at step left
        cases bytes with
        | nil =>
            rw [step.1]
            exact ⟨by simp [Content.limitTo], atEnd_limitedAt takes (inner ▸ step.2)⟩
        | cons b bs =>
            have within : (b :: bs).length ≤ take.limit s := by
              have filled := congrArg (fun p : ReadPoll UInt8 ReadError => p.filled.length) relayed
              exact Nat.le_trans (filled ▸ fits) (Nat.min_le_right _ _)
            have later := step.2 s' inner
            rw [left] at later
            refine ⟨Content.begins_limitTo step.1, ?_⟩
            rw [← Content.drop_limitTo step.1 within]
            exact later

/-- Whatever its reader does, no more than what is left of the limit is handed out. -/
theorem length_read_limitedAt (takes : take.Takes reader limit) (s : take.State)
    {capacities : Nat → Nat} (positive : ∀ i, 0 < capacities i) (n : Nat) :
    ((limitedAt take limit s).read capacities n).1.length ≤ take.limit s := by
  induction n generalizing s capacities with
  | zero => exact Nat.zero_le _
  | succ n ih =>
      obtain exhausted | remaining := Nat.eq_zero_or_pos (take.limit s)
      · obtain ⟨s', polled, -, left⟩ := poll_limitedAt_of_eq_zero takes exhausted (positive 0)
        have later := ih s' fun i => positive (i + 1)
        rw [left] at later
        rw [Reader.read, polled]
        cases probed : ((take.inner s).poll 1).1 with
        | pending => exact Nat.le_trans later (Nat.zero_le _)
        | error e => exact Nat.zero_le _
        | ready bytes => cases bytes <;> exact Nat.zero_le _
      · obtain ⟨s', polled, -, left⟩ :=
          @poll_limitedAt_of_pos take reader limit (capacities 0) takes s remaining
        have fits := (take.inner s).fits (take.inner s).state (min (capacities 0) (take.limit s))
        have later := ih s' fun i => positive (i + 1)
        rw [Reader.read, polled]
        cases relayed : ((take.inner s).poll (min (capacities 0) (take.limit s))).1 with
        | pending =>
            rw [relayed] at left
            exact Nat.le_trans later (left ▸ Nat.sub_le _ _)
        | error e => exact Nat.zero_le _
        | ready bytes =>
            rw [relayed] at left
            cases bytes with
            | nil => exact Nat.zero_le _
            | cons b bs =>
                have within : (b :: bs).length ≤ take.limit s := by
                  have filled :=
                    congrArg (fun p : ReadPoll UInt8 ReadError => p.filled.length) relayed
                  exact Nat.le_trans (filled ▸ fits) (Nat.min_le_right _ _)
                have left : take.limit s' = take.limit s - (b :: bs).length := left
                rw [left] at later
                change ((b :: bs) ++ ((limitedAt take limit s').read _ n).1).length ≤ _
                rw [List.length_append]
                exact Nat.le_trans (Nat.add_le_add_left later _)
                  (Nat.le_of_eq (Nat.add_sub_cancel' within))

end Limit

namespace EmptyObject

/-! ## Libraries that know one member of each format -/

open Reader

/-- The member that zlib makes of the empty object. -/
def zlibMember : Bytes := [0x78, 0x9c, 0xab, 0xae, 0x05, 0x00, 0x01, 0x75, 0x00, 0xf9]

def encoded : ResponseCompressionAlgorithm → Bytes
  | .gzip => member
  | .deflate => zlibMember

def decodeMember (algorithm : ResponseCompressionAlgorithm) (input : Bytes) :
    Option (Bytes × Bytes) :=
  if (encoded algorithm).isPrefixOf input then some (body, input.drop (encoded algorithm).length)
  else none

/-- The next data of a stream, and what comes after it. -/
def nextData (capacity : Nat) : List BodyEvent → ReadPoll UInt8 ReadError × List BodyEvent
  | [] => (.ready [], [])
  | .pending :: rest => (.pending, rest)
  | .error e :: rest => (.error e, rest)
  | .trailers _ :: rest | .data [] :: rest => nextData capacity rest
  | .data (b :: bs) :: rest =>
      (.ready ((b :: bs).take capacity),
        if (b :: bs).drop capacity = [] then rest else .data ((b :: bs).drop capacity) :: rest)

theorem nextData_fits (capacity : Nat) (events : List BodyEvent) :
    (nextData capacity events).1.filled.length ≤ capacity := by
  induction events with
  | nil => exact Nat.zero_le _
  | cons event rest ih =>
      cases event with
      | data bytes =>
          cases bytes with
          | nil => exact ih
          | cons b bs => exact List.length_take_le _ _
      | trailers headers => exact ih
      | pending => exact Nat.zero_le _
      | error e => exact Nat.zero_le _

def streamReader (events : List BodyEvent) : AsyncRead where
  State := List BodyEvent
  state := events
  pollRead events capacity := nextData capacity events
  fits events capacity := nextData_fits capacity events

def take (reader : AsyncRead) (limit : Nat) : Take where
  State := reader.State × Nat
  state := (reader.state, limit)
  limit := (·.2)
  inner s := { reader with state := s.1 }
  pollRead s capacity :=
    let polled := reader.pollRead s.1 (min capacity s.2)
    (polled.1, (polled.2, s.2 - polled.1.filled.length))
  pollInner s capacity :=
    ((reader.pollRead s.1 capacity).1, ((reader.pollRead s.1 capacity).2, s.2))
  fits s capacity := Nat.le_trans (reader.fits s.1 (min capacity s.2)) (Nat.min_le_left _ _)

/-- The bytes of the member that are still to come, and the output that is. -/
abbrev Progress := Bytes × Bytes

/-- Takes one byte of the member from the input, or hands out some of the output. -/
def pollDecode (reader : AsyncRead) (s : reader.State × Progress) (capacity : Nat) :
    ReadPoll UInt8 ReadError × (reader.State × Progress) :=
  match s.2 with
  | ([], output) => (.ready (output.take capacity), (s.1, ([], output.drop capacity)))
  | (b :: expected, output) =>
      let polled := reader.pollRead s.1 1
      match polled.1 with
      | .pending => (.pending, (polled.2, s.2))
      | .error e => (.error e, (polled.2, s.2))
      | .ready bytes =>
          if bytes = [b] then (.pending, (polled.2, (expected, output)))
          else (.error (.other "corrupt input".toList), (polled.2, s.2))

theorem pollDecode_fits (reader : AsyncRead) (s : reader.State × Progress) (capacity : Nat) :
    (pollDecode reader s capacity).1.filled.length ≤ capacity := by
  obtain ⟨s, expected, output⟩ := s
  cases expected with
  | nil => exact List.length_take_le _ _
  | cons b expected =>
      simp only [pollDecode]
      cases (reader.pollRead s 1).1 with
      | pending => exact Nat.zero_le _
      | error e => exact Nat.zero_le _
      | ready bytes =>
          dsimp only
          split <;> exact Nat.zero_le _

def decoderAt (reader : AsyncRead) (progress : Progress) : DecoderInner where
  State := reader.State × Progress
  state := (reader.state, progress)
  pollDecode := pollDecode reader
  pollInput s capacity :=
    ((reader.pollRead s.1 capacity).1, ((reader.pollRead s.1 capacity).2, s.2))
  decodeFits := pollDecode_fits reader
  inputFits s capacity := reader.fits s.1 capacity

def library : AsyncLibrary where
  streamReader := streamReader
  take := take
  decoder algorithm reader := decoderAt reader (encoded algorithm, body)

theorem takes (reader : AsyncRead) (limit : Nat) : (take reader limit).Takes reader limit where
  limit_new := rfl
  inner_new := rfl
  pollRead _ _ _ := ⟨rfl, rfl, rfl⟩
  pollInner _ _ := ⟨rfl, rfl, rfl⟩

theorem begins_data {tail : List BodyEvent} {chunk first rest : Bytes}
    (parts : chunk = first ++ rest) :
    (Content.ofOption (BodyEvent.bytes (.data chunk :: tail))).Begins first ∧
      (Content.ofOption (BodyEvent.bytes (.data chunk :: tail))).drop first =
        Content.ofOption (BodyEvent.bytes (.data rest :: tail)) := by
  subst parts
  cases found : BodyEvent.bytes tail with
  | none => simp [BodyEvent.bytes, found, Content.ofOption, Content.Begins, Content.drop]
  | some bytes => simp [BodyEvent.bytes, found, Content.ofOption, Content.Begins, Content.drop]

theorem delivers_data {tail : List BodyEvent} (chunk : Bytes)
    (delivers : Delivers (Content.ofOption (BodyEvent.bytes tail)) (streamReader tail)) :
    Delivers (Content.ofOption (BodyEvent.bytes (.data chunk :: tail)))
      (streamReader (.data chunk :: tail)) := by
  induction size : chunk.length using Nat.strong_induction_on generalizing chunk with
  | _ n ih =>
      cases chunk with
      | nil =>
          have same : BodyEvent.bytes (.data [] :: tail) = BodyEvent.bytes tail := by
            simp [BodyEvent.bytes]
          rw [same]
          rw [delivers_iff] at delivers ⊢
          exact delivers
      | cons b bs =>
          rw [delivers_iff]
          intro capacity positive
          obtain ⟨c, rfl⟩ := Nat.exists_eq_succ_of_ne_zero (Nat.ne_of_gt positive)
          have polled : (streamReader (.data (b :: bs) :: tail)).poll (c + 1) =
              (.ready (b :: bs.take c), streamReader
                (if bs.drop c = [] then tail else .data (bs.drop c) :: tail)) := rfl
          have parts : b :: bs = (b :: bs.take c) ++ bs.drop c := by
            rw [List.cons_append, List.take_append_drop]
          obtain ⟨begins, left⟩ := @begins_data tail _ _ _ parts
          rw [polled]
          refine ⟨begins, ?_⟩
          rw [left]
          by_cases used : bs.drop c = []
          · rw [if_pos used, used]
            simpa [BodyEvent.bytes] using delivers
          · rw [if_neg used]
            refine ih (bs.drop c).length ?_ (bs.drop c) rfl
            rw [← size, List.length_drop, List.length_cons]
            omega

theorem delivers_streamReader (events : List BodyEvent) :
    Delivers (Content.ofOption (BodyEvent.bytes events)) (streamReader events) := by
  induction events with
  | nil =>
      rw [delivers_iff]
      refine fun capacity positive => ⟨rfl, ?_⟩
      refine AtEnd.coinduct (fun r => r = streamReader []) ?_ _ rfl
      rintro _ rfl capacity positive
      exact ⟨rfl, rfl⟩
  | cons event rest ih =>
      cases event with
      | data bytes => exact delivers_data bytes ih
      | trailers headers =>
          rw [delivers_iff] at ih ⊢
          exact ih
      | pending =>
          rw [delivers_iff]
          exact fun capacity positive => ih
      | error e =>
          rw [delivers_iff]
          exact fun capacity positive => rfl

/-- The input of a decoder is its reader. -/
theorem delivers_input {content : Content UInt8} {reader : AsyncRead} (progress : Progress)
    (delivers : Delivers content reader) : Delivers content (decoderAt reader progress).input := by
  refine Delivers.induct (fun content reader =>
    Delivers content (decoderAt reader progress).input) ?_ content reader delivers
  intro content reader step
  rw [delivers_iff]
  intro capacity positive
  have step := step capacity positive
  have polled : (decoderAt reader progress).input.poll capacity =
      ((reader.poll capacity).1, (decoderAt (reader.poll capacity).2 progress).input) := rfl
  rw [polled]
  cases found : (reader.poll capacity).1 with
  | pending =>
      rw [found] at step
      exact step
  | error e =>
      rw [found] at step
      exact step
  | ready bytes =>
      rw [found] at step
      cases bytes with
      | cons b bs => exact step
      | nil =>
          refine ⟨step.1, ?_⟩
          refine AtEnd.coinduct (fun r => ∃ reader : AsyncRead, reader.AtEnd ∧
            r = (decoderAt reader progress).input) ?_ _ ⟨_, step.2, rfl⟩
          rintro _ ⟨reader, ended, rfl⟩ capacity positive
          rw [atEnd_iff] at ended
          obtain ⟨empty, later⟩ := ended capacity positive
          exact ⟨empty, _, later, rfl⟩

/-- The output of a member that has been taken from the input. -/
theorem decodes_output {content : Content UInt8} {reader : AsyncRead}
    (delivers : Delivers content reader) (output : Bytes) :
    Decodes ((Content.clean output).andThen content) content (decoderAt reader ([], output)) := by
  induction size : output.length using Nat.strong_induction_on generalizing output with
  | _ n ih =>
      rw [decodes_iff]
      intro capacity positive
      obtain ⟨c, rfl⟩ := Nat.exists_eq_succ_of_ne_zero (Nat.ne_of_gt positive)
      cases output with
      | nil =>
          have input := delivers_input ([], []) delivers
          cases content with
          | clean bytes => exact .inl ⟨rfl, input⟩
          | failing => exact .inr ⟨rfl, input⟩
      | cons b bs =>
          have decoded : (decoderAt reader ([], b :: bs)).decode (c + 1) =
              (.ready (b :: bs.take c), decoderAt reader ([], bs.drop c)) := rfl
          have shorter : (bs.drop c).length < n := by
            rw [← size, List.length_drop, List.length_cons]
            omega
          have later := ih (bs.drop c).length shorter (bs.drop c) rfl
          rw [decoded]
          cases content with
          | failing => exact ⟨trivial, later⟩
          | clean bytes =>
              have parts : b :: bs = (b :: bs.take c) ++ bs.drop c := by
                rw [List.cons_append, List.take_append_drop]
              rw [parts]
              refine ⟨List.prefix_append _ _, ?_⟩
              rw [← Content.drop_andThen, Content.drop, List.drop_left]
              exact later

/-- A decoder whose next byte of the member is still to come. -/
theorem decode_expecting (reader : AsyncRead) (b : UInt8) (expected output : Bytes)
    (capacity : Nat) :
    (decoderAt reader (b :: expected, output)).decode capacity =
      match (reader.poll 1).1 with
      | .pending => (.pending, decoderAt (reader.poll 1).2 (b :: expected, output))
      | .error e => (.error e, decoderAt (reader.poll 1).2 (b :: expected, output))
      | .ready bytes =>
          if bytes = [b] then (.pending, decoderAt (reader.poll 1).2 (expected, output))
          else (.error (.other "corrupt input".toList),
            decoderAt (reader.poll 1).2 (b :: expected, output)) := by
  simp only [DecoderInner.decode, decoderAt, pollDecode, poll]
  cases (reader.pollRead reader.state 1).1 with
  | pending => rfl
  | error e => rfl
  | ready bytes =>
      dsimp only
      split <;> rfl

/-- The decoding of an input of which some bytes of the member are still to come. -/
def decodeRest (expected output : Bytes) : Content UInt8 → Content UInt8 × Content UInt8
  | .failing => (.failing, .failing)
  | .clean input =>
      if expected.isPrefixOf input then (.clean output, .clean (input.drop expected.length))
      else (.failing, .failing)

theorem decodeRest_cons {b c : UInt8} {expected output : Bytes} {content : Content UInt8}
    (begins : content.Begins [c]) :
    decodeRest (b :: expected) output content =
      if c = b then decodeRest expected output (content.drop [c]) else (.failing, .failing) := by
  cases content with
  | failing => simp [decodeRest, Content.drop]
  | clean input =>
      obtain ⟨rest, rfl⟩ := begins
      by_cases same : c = b
      · simp [decodeRest, Content.drop, same]
      · simp [decodeRest, same, Ne.symm same]

theorem decodes_rest {content : Content UInt8} {reader : AsyncRead} (output : Bytes)
    (delivers : Delivers content reader) (expected : Bytes) :
    Decodes (decodeRest expected output content).1 (decodeRest expected output content).2
      (decoderAt reader (expected, output)) := by
  refine (Delivers.induct (fun content reader => Delivers content reader ∧ ∀ expected,
    Decodes (decodeRest expected output content).1 (decodeRest expected output content).2
      (decoderAt reader (expected, output))) ?_ content reader delivers).2 expected
  intro content reader step
  have delivers : Delivers content reader := by
    rw [delivers_iff]
    intro capacity positive
    have step := step capacity positive
    cases found : (reader.poll capacity).1 with
    | pending =>
        rw [found] at step
        exact step.1
    | error e =>
        rw [found] at step
        exact step
    | ready bytes =>
        rw [found] at step
        cases bytes with
        | nil => exact step
        | cons b bs => exact ⟨step.1, step.2.1⟩
  refine ⟨delivers, fun expected => ?_⟩
  cases expected with
  | nil =>
      have output := decodes_output delivers output
      cases content with
      | failing => exact output
      | clean input => exact output
  | cons b expected =>
      rw [decodes_iff]
      intro capacity positive
      rw [decode_expecting]
      have step := step 1 Nat.one_pos
      have fits := reader.fits reader.state 1
      cases found : (reader.poll 1).1 with
      | pending =>
          rw [found] at step
          exact step.2 (b :: expected)
      | error e =>
          rw [found] at step
          subst step
          rfl
      | ready bytes =>
          rw [found] at step
          change ((reader.poll 1).1.filled).length ≤ 1 at fits
          rw [found] at fits
          cases bytes with
          | nil =>
              obtain ⟨rfl, -⟩ := step
              rfl
          | cons c cs =>
              obtain rfl : cs = [] := List.eq_nil_of_length_eq_zero (Nat.le_zero.mp
                (Nat.le_of_succ_le_succ fits))
              rw [decodeRest_cons step.1]
              by_cases same : c = b
              · simpa only [same, if_true] using step.2.2 expected
              · have other : [c] ≠ [b] := fun eq => same (List.head_eq_of_cons_eq eq)
                simp only [same, other, if_false]

theorem library_laws : library.Laws decodeMember where
  streamReader := delivers_streamReader
  take := takes
  valid algorithm reader bytes out rest delivers decoded := by
    have decodes := decodes_rest body delivers (encoded algorithm)
    rw [decodeMember] at decoded
    split at decoded
    · next begins =>
        cases decoded
        simp only [decodeRest, begins, if_true] at decodes
        exact decodes
    · cases decoded
  invalid algorithm reader bytes delivers undecoded := by
    have decodes := decodes_rest body delivers (encoded algorithm)
    rw [decodeMember] at undecoded
    split at undecoded
    · cases undecoded
    · next other =>
        simp only [decodeRest, other, Bool.false_eq_true, if_false] at decodes
        exact decodes
  broken algorithm _ delivers := decodes_rest body delivers (encoded algorithm)

/-- The member in two frames, with nothing there in between. -/
def frames : List BodyEvent := [.data (member.take 5), .pending, .data (member.drop 5)]

end EmptyObject

section Stages

/-! ## All stages -/

open Reader

variable {library : AsyncLibrary}
variable {member : ResponseCompressionAlgorithm → Bytes → Option (Bytes × Bytes)}

/-- The complete outputs of the stages, up to the first that cannot be decoded. -/
def stageOutputs (member : ResponseCompressionAlgorithm → Bytes → Option (Bytes × Bytes)) :
    List ResponseCompressionAlgorithm → Bytes → List Bytes
  | [], _ => []
  | algorithm :: rest, input =>
      match member algorithm input with
      | some (output, _) => output :: stageOutputs member rest output
      | none => []

/-- Every stage can be decoded, and no complete output exceeds the limit. -/
structure StagesWithin (member : ResponseCompressionAlgorithm → Bytes → Option (Bytes × Bytes))
    (limit : Nat) (algorithms : List ResponseCompressionAlgorithm) (raw : Bytes) : Prop where
  decoded : (stageOutputs member algorithms raw).length = algorithms.length
  within : ∀ output ∈ stageOutputs member algorithms raw, output.length ≤ limit

/-- What one stage delivers. -/
def stageContent (member : ResponseCompressionAlgorithm → Bytes → Option (Bytes × Bytes))
    (limit : Nat) (content : Content UInt8) (algorithm : ResponseCompressionAlgorithm) :
    Content UInt8 :=
  match content with
  | .clean input => (Content.ofOption ((member algorithm input).map (·.1))).limitTo limit
  | .failing => .failing

theorem foldl_stageContent_failing (limit : Nat) (algorithms : List ResponseCompressionAlgorithm) :
    algorithms.foldl (stageContent member limit) .failing = .failing := by
  induction algorithms with
  | nil => rfl
  | cons algorithm algorithms ih => exact ih

/-- The stages deliver the last output, if every output is within the limit. -/
theorem foldl_stageContent_eq_clean {limit : Nat} {algorithms : List ResponseCompressionAlgorithm}
    {raw bytes : Bytes} :
    algorithms.foldl (stageContent member limit) (.clean raw) = .clean bytes ↔
      StagesWithin member limit algorithms raw ∧
        bytes = (stageOutputs member algorithms raw).getLastD raw := by
  induction algorithms generalizing raw with
  | nil =>
      constructor
      · rintro ⟨⟩
        exact ⟨⟨rfl, by simp [stageOutputs]⟩, rfl⟩
      · rintro ⟨-, rfl⟩
        rfl
  | cons algorithm algorithms ih =>
      rw [List.foldl_cons]
      cases decoded : member algorithm raw with
      | none =>
          have failed : stageContent member limit (.clean raw) algorithm = .failing := by
            simp [stageContent, decoded, Content.ofOption, Content.limitTo]
          rw [failed, foldl_stageContent_failing]
          refine iff_of_false (by simp) fun all => ?_
          have length := all.1.decoded
          simp [stageOutputs, decoded] at length
      | some result =>
          obtain ⟨output, rest⟩ := result
          have outputs : stageOutputs member (algorithm :: algorithms) raw =
              output :: stageOutputs member algorithms output := by
            simp [stageOutputs, decoded]
          by_cases within : output.length ≤ limit
          · have stage : stageContent member limit (.clean raw) algorithm = .clean output := by
              simp [stageContent, decoded, Content.ofOption, Content.limitTo, within]
            rw [stage, ih, outputs]
            refine and_congr ⟨fun all => ⟨?_, ?_⟩, fun all => ⟨?_, ?_⟩⟩ ?_
            · rw [outputs, List.length_cons, all.decoded, List.length_cons]
            · rw [outputs]
              exact List.forall_mem_cons.mpr ⟨within, all.within⟩
            · have length := all.decoded
              rw [outputs, List.length_cons, List.length_cons] at length
              exact Nat.succ.inj length
            · have each := all.within
              rw [outputs] at each
              exact (List.forall_mem_cons.mp each).2
            · rw [List.getLastD_cons]
          · have stage : stageContent member limit (.clean raw) algorithm = .failing := by
              simp [stageContent, decoded, Content.ofOption, Content.limitTo, within]
            rw [stage, foldl_stageContent_failing]
            refine iff_of_false (by simp) fun all => within ?_
            have each := all.1.within
            rw [outputs] at each
            exact (List.forall_mem_cons.mp each).1

/-- One stage, from what its reader delivers. -/
theorem delivers_stage (laws : library.Laws member) {content : Content UInt8} {reader : AsyncRead}
    (delivers : Delivers content reader) (limit : Nat) (algorithm : ResponseCompressionAlgorithm) :
    Delivers (stageContent member limit content algorithm) (sizeLimitedReader
      (library.take (completeStageDecoder (library.decoder algorithm reader)) limit) limit) := by
  have takes := laws.take (completeStageDecoder (library.decoder algorithm reader)) limit
  have limited {content : Content UInt8}
      (decoded : Delivers content (completeStageDecoder (library.decoder algorithm reader))) :
      Delivers (content.limitTo limit) (sizeLimitedReader
        (library.take (completeStageDecoder (library.decoder algorithm reader)) limit) limit) := by
    have inner := decoded
    rw [← takes.inner_new] at inner
    have delivered := delivers_limitedAt takes inner
    rw [takes.limit_new] at delivered
    exact delivered
  cases content with
  | failing => exact limited (laws.broken algorithm reader delivers).delivers
  | clean input =>
      rw [stageContent]
      cases decoded : member algorithm input with
      | none => exact limited (laws.invalid algorithm reader input delivers decoded).delivers
      | some result =>
          obtain ⟨output, rest⟩ := result
          exact limited (laws.valid algorithm reader input output rest delivers decoded).delivers

/-- The reader of a wrapped body. -/
def stagesReader (library : AsyncLibrary) (limit : Nat)
    (algorithms : List ResponseCompressionAlgorithm) (reader : AsyncRead) : AsyncRead :=
  algorithms.foldl (fun reader algorithm => sizeLimitedReader
    (library.take (completeStageDecoder (library.decoder algorithm reader)) limit) limit) reader

theorem delivers_stages (laws : library.Laws member) {content : Content UInt8} {reader : AsyncRead}
    (delivers : Delivers content reader) (limit : Nat)
    (algorithms : List ResponseCompressionAlgorithm) :
    Delivers (algorithms.foldl (stageContent member limit) content)
      (stagesReader library limit algorithms reader) := by
  induction algorithms generalizing content reader with
  | nil => exact delivers
  | cons algorithm algorithms ih => exact ih (delivers_stage laws delivers limit algorithm)

/-- The outermost reader is a limited one. -/
theorem length_read_stages (laws : library.Laws member) (limit : Nat) (reader : AsyncRead)
    {encodings : List ResponseCompressionAlgorithm} (encoded : encodings ≠ [])
    {capacities : Nat → Nat} (positive : ∀ i, 0 < capacities i) (n : Nat) :
    ((stagesReader library limit encodings.reverse reader).read capacities n).1.length ≤ limit := by
  obtain ⟨innermost, others, rfl⟩ := List.exists_cons_of_ne_nil encoded
  rw [List.reverse_cons, stagesReader, List.foldl_append, List.foldl_cons, List.foldl_nil]
  have takes := laws.take (completeStageDecoder (library.decoder innermost
    (stagesReader library limit others.reverse reader))) limit
  have bound := length_read_limitedAt takes (library.take _ limit).state positive n
  rw [takes.limit_new] at bound
  exact bound

/-- Bounded decompression is exact. However the body is cut into frames, whatever the
buffers and whenever nothing is there yet, the reading ends, and it ends cleanly if and
only if every stage decodes and keeps its complete output within the limit. What has been
read then is the output of the last stage. With at least one encoding, no more than the
limit is ever handed out. -/
theorem bounded_decompression_is_exact (laws : library.Laws member) (body : List BodyEvent)
    (encodings : List ResponseCompressionAlgorithm) {maxEncodingLayers : Nat} (limit : Nat)
    (layers : encodings.length ≤ maxEncodingLayers) :
    ∃ reader, wrapDecompressedBody library body encodings maxEncodingLayers limit = .ok reader ∧
      ∀ capacities : Nat → Nat, (∀ i, 0 < capacities i) →
        (∃ n, (reader.read capacities n).2 ≠ none) ∧
        ∀ n,
          ((reader.read capacities n).2 = some .ended → ∃ raw, BodyEvent.bytes body = some raw ∧
            StagesWithin member limit encodings.reverse raw ∧ (reader.read capacities n).1 =
              (stageOutputs member encodings.reverse raw).getLastD raw) ∧
          ((reader.read capacities n).2 = some .failed → ∀ raw, BodyEvent.bytes body = some raw →
            ¬ StagesWithin member limit encodings.reverse raw) ∧
          (encodings ≠ [] → (reader.read capacities n).1.length ≤ limit) := by
  have few : ¬ encodings.length > maxEncodingLayers := Nat.not_lt.mpr layers
  have raw := laws.streamReader (BodyEvent.dataStream body)
  rw [BodyEvent.bytes_dataStream] at raw
  have delivers := delivers_stages laws raw limit encodings.reverse
  refine ⟨stagesReader library limit encodings.reverse
    (library.streamReader (BodyEvent.dataStream body)), ?_, fun capacities positive => ?_⟩
  · rw [wrapDecompressedBody, validateResponseEncodingLayerCount, if_neg few]
    rfl
  refine ⟨delivers.terminates positive, fun n => ?_⟩
  obtain ⟨-, ended, failed⟩ := delivers.read_spec positive n
  refine ⟨fun last => ?_, fun last => ?_, fun encoded => length_read_stages laws limit _ encoded
    positive n⟩
  · have clean := ended last
    cases data : BodyEvent.bytes body with
    | none =>
        rw [data, Content.ofOption, foldl_stageContent_failing] at clean
        cases clean
    | some raw =>
        rw [data] at clean
        obtain ⟨within, whole⟩ := foldl_stageContent_eq_clean.mp clean
        exact ⟨raw, rfl, within, whole⟩
  · intro raw data within
    have failing := failed last
    rw [data, Content.ofOption, foldl_stageContent_eq_clean.mpr ⟨within, rfl⟩] at failing
    cases failing

end Stages

/-- A limit of just the size of the output is enough. -/
theorem bounded_decompression_is_exact_at_limit :
    ∃ reader, wrapDecompressedBody EmptyObject.library EmptyObject.frames [.gzip] 5 2 =
        .ok reader ∧
      ∀ capacities : Nat → Nat, (∀ i, 0 < capacities i) →
        ∃ n, (reader.read capacities n).2 = some .ended ∧
          (reader.read capacities n).1 = EmptyObject.body := by
  have layers : [ResponseCompressionAlgorithm.gzip].length ≤ 5 := by decide
  obtain ⟨reader, wrapped, reads⟩ := bounded_decompression_is_exact EmptyObject.library_laws
    EmptyObject.frames [.gzip] 2 layers
  refine ⟨reader, wrapped, fun capacities positive => ?_⟩
  obtain ⟨⟨n, last⟩, outcomes⟩ := reads capacities positive
  obtain ⟨ended, failed, -⟩ := outcomes n
  have data : BodyEvent.bytes EmptyObject.frames = some EmptyObject.member := by decide
  have within : StagesWithin EmptyObject.decodeMember 2 [.gzip] EmptyObject.member :=
    ⟨by decide, by decide⟩
  cases ending : (reader.read capacities n).2 with
  | none => exact absurd ending last
  | some ending' =>
      cases ending' with
      | failed => exact absurd within (failed ending _ data)
      | ended =>
          obtain ⟨raw, bytes, -, whole⟩ := ended ending
          rw [data] at bytes
          cases bytes
          exact ⟨n, ending, whole⟩

/-- Without an encoding there is no stage, and no limit. -/
theorem unencoded_body_is_not_bounded :
    EmptyObject.library.Laws EmptyObject.decodeMember ∧
      ∃ reader, wrapDecompressedBody EmptyObject.library [.data [0]] [] 5 0 = .ok reader ∧
        ¬ (reader.read (fun _ => 1) 1).1.length ≤ 0 := by
  refine ⟨EmptyObject.library_laws, _, rfl, ?_⟩
  decide

end AlternatorDriver
