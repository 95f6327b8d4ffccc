import AgentTaskPlatform.InputFiles
import Mathlib.Data.List.Chain
import Mathlib.Data.List.Pairwise

/-!
What reaches the model of the input files: every content once, within the limits, and a text in
base64 with exactly its octets.
-/

namespace AgentTaskPlatform.InputFiles

open FirstOccurrences Outbound Outcomes Stripping

section Sources

variable {world : World} {bySource : List (String × Metadata)} {metadata : Metadata}
  {keys : List String}

def Agrees (bySource : List (String × Metadata)) (metadata : Metadata) (keys : List String) : Prop :=
  ∀ key ∈ keys, ∀ previous, bySource.lookup key = some previous → previous = metadata

/-- The table with the keys of one more payload, and whether it had one of them. -/
structure Noted (bySource : List (String × Metadata)) (metadata : Metadata) (keys : List String)
    (before : Bool) (outcome : Bool × List (String × Metadata)) : Prop where
  agrees : Agrees bySource metadata keys
  known : outcome.1 = true ↔ before = true ∨ ∃ key ∈ keys, bySource.lookup key ≠ none
  table : ∀ key, outcome.2.lookup key =
    if key ∈ keys then some metadata else bySource.lookup key

theorem lookup_added (first key : String) : (bySource ++ [(first, metadata)]).lookup key =
    (bySource.lookup key).or (if key = first then some metadata else none) := by
  rw [List.lookup_append]
  congr 1
  by_cases same : key = first
  · simp [same]
  · simp [List.lookup_cons, beq_eq_false_iff_ne.mpr same, same]

theorem noteSources_noted (distinct : keys.Nodup) {before : Bool}
    {outcome : Bool × List (String × Metadata)}
    (noted : noteSources world metadata bySource before keys = .ok outcome) :
    Noted bySource metadata keys before outcome := by
  induction keys generalizing bySource before with
  | nil =>
      cases noted
      exact ⟨fun _ none => (by cases none), by simp, by simp⟩
  | cons first rest ih =>
      obtain ⟨fresh, later⟩ := List.nodup_cons.mp distinct
      rw [noteSources] at noted
      cases found : bySource.lookup first with
      | some previous =>
          simp only [found] at noted
          split at noted
          · cases noted
          · next same =>
              rw [not_not] at same
              subst same
              have rest_ := ih later noted
              refine ⟨?_, ?_, ?_⟩
              · intro key member other held
                rcases List.mem_cons.mp member with rfl | inside
                · exact (Option.some.inj (found.symm.trans held)).symm
                · exact rest_.agrees key inside other held
              · rw [rest_.known]
                constructor
                · intro _
                  have held : bySource.lookup first ≠ none := by simp [found]
                  exact Or.inr ⟨first, List.mem_cons_self, held⟩
                · intro _
                  exact Or.inl rfl
              · intro key
                rw [rest_.table]
                by_cases same : key = first
                · simp [same, found]
                · simp [same]
      | none =>
          simp only [found] at noted
          have rest_ := ih later noted
          have elsewhere : ∀ key ∈ rest,
              (bySource ++ [(first, metadata)]).lookup key = bySource.lookup key := by
            intro key member
            have other : key ≠ first := fun same => fresh (same ▸ member)
            simp [lookup_added, other]
          refine ⟨?_, ?_, ?_⟩
          · intro key member other held
            rcases List.mem_cons.mp member with rfl | inside
            · rw [found] at held
              cases held
            · exact rest_.agrees key inside other ((elsewhere key inside).trans held)
          · rw [rest_.known]
            constructor
            · rintro (old | ⟨key, inside, held⟩)
              · exact Or.inl old
              · exact Or.inr ⟨key, List.mem_cons_of_mem first inside, elsewhere key inside ▸ held⟩
            · rintro (old | ⟨key, member, held⟩)
              · exact Or.inl old
              · rcases List.mem_cons.mp member with rfl | inside
                · exact absurd found held
                · exact Or.inr ⟨key, inside, (elsewhere key inside).symm ▸ held⟩
          · intro key
            rw [rest_.table, lookup_added]
            by_cases same : key = first
            · simp [same, found]
            · simp [same]

theorem noteSources_agrees (distinct : keys.Nodup) (agrees : Agrees bySource metadata keys)
    (before : Bool) : ∃ outcome, noteSources world metadata bySource before keys = .ok outcome := by
  induction keys generalizing bySource before with
  | nil => exact ⟨_, rfl⟩
  | cons first rest ih =>
      obtain ⟨fresh, later⟩ := List.nodup_cons.mp distinct
      rw [noteSources]
      cases found : bySource.lookup first with
      | some previous =>
          have same := agrees first List.mem_cons_self previous found
          simp only [same, ne_eq, not_true, if_false]
          exact ih later (fun key member => agrees key (List.mem_cons_of_mem first member)) true
      | none =>
          refine ih later ?_ before
          intro key member previous held
          have other : key ≠ first := fun same => fresh (same ▸ member)
          apply agrees key (List.mem_cons_of_mem first member) previous
          simpa [lookup_added, other] using held

end Sources

section Deduplication

variable {world : World}

def Agree (world : World) (one two : FilePayload) : Prop :=
  ∀ key ∈ one.sourceKeys, key ∈ two.sourceKeys → metadataOf world one = metadataOf world two

def digestOf (world : World) (file : FilePayload) : String := world.sha256 file.data

structure Tables (world : World) (past : List FilePayload)
    (bySource : List (String × Metadata)) (contentDigests : List String) : Prop where
  sources : ∀ key metadata, bySource.lookup key = some metadata ↔
    ∃ file ∈ past, key ∈ file.sourceKeys ∧ metadataOf world file = metadata
  digests : ∀ digest, digest ∈ contentDigests ↔ ∃ file ∈ past, digestOf world file = digest

variable {past payloads : List FilePayload} {bySource : List (String × Metadata)}
  {contentDigests : List String} {resolved attached : List InputFile}

theorem Tables.agrees_iff (tables : Tables world past bySource contentDigests)
    (file : FilePayload) : Agrees bySource (metadataOf world file) file.sourceKeys ↔
      ∀ other ∈ past, Agree world other file := by
  constructor
  · intro agrees other member key own shared
    exact agrees key shared _ ((tables.sources key _).mpr ⟨other, member, own, rfl⟩)
  · intro agree key shared previous held
    obtain ⟨other, member, own, same⟩ := (tables.sources key previous).mp held
    exact same.symm.trans (agree other member key own shared)

theorem Tables.next (tables : Tables world past bySource contentDigests) {file : FilePayload}
    {outcome : Bool × List (String × Metadata)} {digests : List String}
    (noted : Noted bySource (metadataOf world file) file.sourceKeys false outcome)
    (grown : ∀ digest, digest ∈ digests ↔ digest ∈ contentDigests ∨ digestOf world file = digest) :
    Tables world (past ++ [file]) outcome.2 digests where
  sources key metadata := by
    rw [noted.table]
    constructor
    · intro held
      split at held
      · next own =>
          cases held
          exact ⟨file, by simp, own, rfl⟩
      · obtain ⟨other, member, own, same⟩ := (tables.sources key metadata).mp held
        exact ⟨other, List.mem_append_left _ member, own, same⟩
    · rintro ⟨other, member, own, same⟩
      rcases List.mem_append.mp member with old | new
      · have held := (tables.sources key metadata).mpr ⟨other, old, own, same⟩
        split
        · next shared => exact congrArg some (noted.agrees key shared metadata held).symm
        · exact held
      · rw [List.mem_singleton.mp new] at own same
        rw [if_pos own, same]
  digests digest := by
    rw [grown, tables.digests]
    simp [or_and_right, exists_or]

theorem Tables.known (tables : Tables world past bySource contentDigests) {file : FilePayload}
    {outcome : Bool × List (String × Metadata)}
    (noted : Noted bySource (metadataOf world file) file.sourceKeys false outcome)
    (duplicate : outcome.1 = true) : digestOf world file ∈ contentDigests := by
  rcases noted.known.mp duplicate with none | ⟨key, own, held⟩
  · cases none
  · obtain ⟨previous, found⟩ := Option.ne_none_iff_exists'.mp held
    have same := noted.agrees key own previous found
    obtain ⟨other, member, _, metadata⟩ := (tables.sources key previous).mp found
    have digest : digestOf world other = digestOf world file :=
      congrArg Metadata.digest (metadata.trans same)
    exact (tables.digests _).mpr ⟨other, member, digest⟩

theorem deduplicateFrom_cons (tables : Tables world past bySource contentDigests)
    {file : FilePayload} {outcome : Bool × List (String × Metadata)} (own : file.sourceKeys.Nodup)
    (noted : noteSources world (metadataOf world file) bySource false file.sourceKeys =
      .ok outcome) :
    deduplicateFrom world resolved bySource contentDigests (file :: payloads) =
      if digestOf world file ∈ contentDigests then
        deduplicateFrom world resolved outcome.2 contentDigests payloads
      else deduplicateFrom world (resolved ++ [file.toInputFile]) outcome.2
        (digestOf world file :: contentDigests) payloads := by
  have known := tables.known (noteSources_noted own noted)
  rw [deduplicateFrom, noted]
  by_cases old : digestOf world file ∈ contentDigests
  · have skipped : (outcome.1 || decide (digestOf world file ∈ contentDigests)) = true := by
      simp [old]
    exact (if_pos skipped).trans (if_pos old).symm
  · have fresh : outcome.1 = false := Bool.eq_false_iff.mpr fun duplicate => old (known duplicate)
    have kept : ¬ (outcome.1 || decide (digestOf world file ∈ contentDigests)) = true := by
      simp [old, fresh]
    exact (if_neg kept).trans (if_neg old).symm

theorem deduplicateFrom_ok (tables : Tables world past bySource contentDigests)
    (distinct : ∀ file ∈ payloads, file.sourceKeys.Nodup) :
    deduplicateFrom world resolved bySource contentDigests payloads = .ok attached ↔
      ((∀ file ∈ payloads, ∀ other ∈ past, Agree world other file) ∧
        payloads.Pairwise (Agree world)) ∧
      attached = resolved ++ (firstsFrom (digestOf world) contentDigests payloads).map
        FilePayload.toInputFile := by
  induction payloads generalizing past bySource contentDigests resolved with
  | nil => simp [deduplicateFrom, firstsFrom, eq_comm]
  | cons file rest ih =>
      have own := distinct file List.mem_cons_self
      have later : ∀ other ∈ rest, other.sourceKeys.Nodup := fun other member =>
        distinct other (List.mem_cons_of_mem file member)
      by_cases agrees : Agrees bySource (metadataOf world file) file.sourceKeys
      · obtain ⟨outcome, noted⟩ := noteSources_agrees own agrees false
        have spec := noteSources_noted own noted
        have before := (tables.agrees_iff file).mp agrees
        have split : ((∀ one ∈ file :: rest, ∀ other ∈ past, Agree world other one) ∧
            (file :: rest).Pairwise (Agree world)) ↔
            (∀ one ∈ rest, ∀ other ∈ past ++ [file], Agree world other one) ∧
              rest.Pairwise (Agree world) := by
          simp only [List.forall_mem_cons, List.pairwise_cons, List.forall_mem_append,
            List.mem_singleton, forall_eq]
          constructor
          · rintro ⟨⟨_, old⟩, new, pairs⟩
            exact ⟨fun one member => ⟨old one member, new one member⟩, pairs⟩
          · rintro ⟨all, pairs⟩
            exact ⟨⟨before, fun one member => (all one member).1⟩,
              fun one member => (all one member).2, pairs⟩
        rw [deduplicateFrom_cons tables own noted, split, firstsFrom]
        by_cases old : digestOf world file ∈ contentDigests
        · have next : Tables world (past ++ [file]) outcome.2 contentDigests := by
            refine tables.next spec fun digest => ?_
            constructor
            · exact Or.inl
            · rintro (held | rfl)
              · exact held
              · exact old
          rw [if_pos old, if_pos old, ih next later]
        · have next : Tables world (past ++ [file]) outcome.2
              (digestOf world file :: contentDigests) := by
            refine tables.next spec fun digest => ?_
            rw [List.mem_cons, or_comm, eq_comm]
          rw [if_neg old, if_neg old, ih next later, List.append_assoc]
          rfl
      · constructor
        · intro found
          rw [deduplicateFrom, bind_ok] at found
          obtain ⟨outcome, noted, _⟩ := found
          exact absurd (noteSources_noted own noted).agrees agrees
        · rintro ⟨⟨all, _⟩, _⟩
          exact absurd ((tables.agrees_iff file).mpr (all file List.mem_cons_self)) agrees

end Deduplication

section Origins

variable {world : World} {client : FileClient}

theorem prefixed_apart (one two : String) (apart : one.toList.head? ≠ two.toList.head?)
    (some_ : one.toList ≠ []) (other : two.toList ≠ []) (left right : String) :
    one ++ left ≠ two ++ right := by
  intro same
  have heads := congrArg (fun text => text.toList.head?) same
  simp only [String.toList_append] at heads
  rw [List.head?_append_of_ne_nil _ some_, List.head?_append_of_ne_nil _ other] at heads
  exact apart heads

theorem sourceKeys_nodup (file : RunFile) (localPath : Option String) :
    (file.sourceKeys localPath).Nodup := by
  have idPath := prefixed_apart "file_id:" "path:" (by decide) (by decide) (by decide)
  have idUrl := prefixed_apart "file_id:" "url:" (by decide) (by decide) (by decide)
  have pathUrl := prefixed_apart "path:" "url:" (by decide) (by decide) (by decide)
  unfold RunFile.sourceKeys
  cases given file.fileId <;> cases localPath <;> cases given file.url <;> simp_all

theorem validateSize_ok {size : Int} {source : String} {checked : Unit} :
    client.validateSize size source = .ok checked ↔ size ≤ client.maxFileSize := by
  unfold FileClient.validateSize
  split
  · next above => simp [above]
  · next below => simpa using below

theorem validateMimeType_ok {mimeType : String} {checked : Unit} :
    client.validateMimeType world mimeType = .ok checked ↔
      client.allows (normalized world mimeType) = true := by
  unfold FileClient.validateMimeType
  split
  · next allowed => simp [allowed]
  · next refused => simp [refused]

theorem localFilePayload_ok {path : String} {fileName mimeType : Option String}
    {sourceKeys : List String} {payload : FilePayload}
    (made : localFilePayload world client path fileName mimeType sourceKeys = .ok payload) :
    world.node path = some (some payload.data) ∧
      (payload.data.length : Int) ≤ client.maxFileSize ∧
      client.allows (normalized world payload.mimeType) = true ∧
      payload.sourceKeys = if sourceKeys = [] then ["path:" ++ path] else sourceKeys := by
  unfold localFilePayload at made
  split at made
  · cases made
  · cases made
  · next held =>
      simp only [bind_ok, validateSize_ok, validateMimeType_ok, pure_ok] at made
      obtain ⟨_, small, _, allowed, rfl⟩ := made
      exact ⟨held, small, allowed, rfl⟩

theorem base64Payload_ok {file : RunFile} {payload : FilePayload}
    (made : base64Payload world client file = .ok (some payload)) :
    Base64.decode (compact world (file.meta "content_base64")) = some payload.data ∧
      (payload.data.length : Int) ≤ client.maxFileSize ∧
      client.allows (normalized world payload.mimeType) = true ∧
      payload.sourceKeys = file.sourceKeys none := by
  cases content : (file.meta "content_base64").truthy with
  | false => simp [base64Payload, content] at made
  | true =>
      simp only [base64Payload, content, if_true, bind_ok, validateMimeType_ok,
        validateSize_ok] at made
      obtain ⟨_, allowed, _, _, made⟩ := made
      cases decoded : Base64.decode (compact world (file.meta "content_base64")) with
      | none => simp [decoded] at made
      | some data =>
          simp only [decoded, bind_ok, validateSize_ok, pure_ok, Option.some.injEq] at made
          obtain ⟨_, small, rfl⟩ := made
          exact ⟨rfl, small, allowed, rfl⟩

/-- The estimate before the decoding is the size of what a canonical text holds. -/
theorem base64Payload_encoded {file : RunFile}
    (content : (file.meta "content_base64").truthy = true) {octets : Bytes}
    (encoded : compact world (file.meta "content_base64") = Base64.encode octets) :
    base64Payload world client file = (do
      let mimeType := orElse file.mimeType (guessMime world (orElse file.fileName ""))
      client.validateMimeType world mimeType
      client.validateSize octets.length (orElse file.fileName "BASE64 file")
      return some ⟨⟨orElse file.fileName "input-file", mimeType, octets⟩,
        file.sourceKeys none⟩) := by
  unfold base64Payload
  simp only [content, if_true, encoded, Base64.decode_encode, Base64.size_encode]
  congr 1
  funext _
  cases checked : client.validateSize octets.length (orElse file.fileName "BASE64 file") with
  | error error => rfl
  | ok _ => simp only [Bind.bind, Except.bind]

/-- The chunks are taken while their sum is within the limit. -/
theorem gather_ok {total : Nat} {chunks rest : List Bytes} {data : Bytes} :
    client.gather total chunks rest = .ok data ↔ data = (chunks ++ rest).flatten ∧
      (rest = [] ∨ ((total + rest.flatten.length : Nat) : Int) ≤ client.maxFileSize) := by
  induction rest generalizing total chunks with
  | nil => simp [FileClient.gather, eq_comm]
  | cons chunk later ih =>
      rw [FileClient.gather]
      split
      · next above =>
          simp only [reduceCtorEq, List.flatten_cons, List.length_append, false_iff, not_and,
            not_or, not_le]
          intro _
          exact ⟨not_false, by omega⟩
      · next below =>
          rw [ih]
          simp only [List.append_assoc, List.singleton_append, List.flatten_cons,
            List.length_append, reduceCtorEq, false_or, ← Nat.add_assoc]
          refine and_congr_right fun _ => ⟨?_, Or.inr⟩
          rintro (rfl | within)
          · simpa using below
          · exact within

structure Downloaded (world : World) (client : FileClient) (url : String) (data : Bytes) :
    Prop where
  accepted : validate world.toSurroundings client.outboundPolicy url.toList = .ok ()
  received : ∃ response, world.get url = .ok response ∧ 200 ≤ response.statusCode ∧
    response.statusCode < 300 ∧ data = response.chunks.flatten ∧
    (response.chunks = [] ∨ (data.length : Int) ≤ client.maxFileSize) ∧
    (normalized world (response.contentType.getD "") = [] ∨ client.allows (normalized world
      (String.ofList (normalized world (response.contentType.getD "")))) = true)

theorem checkContentType_ok {response : Response} {fileMime : Option String} {checked : Unit}
    (passed : client.checkContentType world response fileMime = .ok checked) :
    normalized world (response.contentType.getD "") = [] ∨ client.allows (normalized world
      (String.ofList (normalized world (response.contentType.getD "")))) = true := by
  by_cases empty : normalized world (response.contentType.getD "") = []
  · exact Or.inl empty
  · refine Or.inr ?_
    simp only [FileClient.checkContentType, ne_eq, empty, not_false_eq_true, true_and, if_true]
      at passed
    split at passed
    · split at passed
      · simp at passed
      · exact validateMimeType_ok.mp passed
    · exact validateMimeType_ok.mp passed

theorem fetch_ok {fileId url : Option String} {data : Bytes}
    (fetched : client.fetch world fileId url = .ok data) :
    ∃ target, Downloaded world client target data ∧
      ((∃ id file, given fileId = some id ∧
          (client.files.find? fun file => file.fileId = some id) = some file ∧
          given file.url = some target) ∨
        given fileId = none ∧ given url = some target) := by
  have reached : ∃ targetUrl fileMime,
      ((∃ id file, given fileId = some id ∧
          (client.files.find? fun file => file.fileId = some id) = some file ∧
          file.url = targetUrl) ∨ given fileId = none ∧ url = targetUrl) ∧
      (given targetUrl).elim (throw (valueError "File fetch requires a URL or a run file with url"))
        (fun targetUrl => do
          validate world.toSurroundings client.outboundPolicy targetUrl.toList
          let response ← world.get targetUrl
          if 300 ≤ response.statusCode ∧ response.statusCode < 400 then
            throw (fetchError "File fetch redirects are not allowed")
          if response.statusCode < 200 ∨ 300 ≤ response.statusCode then
            throw (world.statusError response.statusCode)
          client.checkLength world response
          client.checkContentType world response fileMime
          client.gather 0 [] response.chunks) = .ok data := by
    unfold FileClient.fetch at fetched
    cases asked : given fileId with
    | none =>
        simp only [asked] at fetched
        refine ⟨url, none, Or.inr ⟨rfl, rfl⟩, ?_⟩
        cases target : given url with
        | none => simp [target] at fetched
        | some target => simpa [target] using fetched
    | some id =>
        simp only [asked, FileClient.require] at fetched
        cases found : client.files.find? fun file => file.fileId = some id with
        | none => simp [found] at fetched
        | some file =>
            simp only [found] at fetched
            refine ⟨file.url, file.mimeType, Or.inl ⟨id, file, rfl, found, rfl⟩, ?_⟩
            cases target : given file.url with
            | none => simp [target] at fetched
            | some target => simpa [target] using fetched
  obtain ⟨targetUrl, fileMime, origin, done⟩ := reached
  cases held : given targetUrl with
  | none => simp [held] at done
  | some target =>
      simp only [held, Option.elim_some, bind_ok] at done
      obtain ⟨_, accepted, response, got, done⟩ := done
      split at done
      · simp at done
      split at done
      · simp at done
      · next direct settled =>
          simp only [bind_ok, gather_ok, List.nil_append, Nat.zero_add] at done
          obtain ⟨_, _, _, typed, rfl, within⟩ := done
          refine ⟨target, ⟨accepted, response, got, by omega, by omega, rfl, within,
            checkContentType_ok typed⟩, ?_⟩
          rcases origin with ⟨id, file, asked, found, rfl⟩ | ⟨asked, rfl⟩
          · exact Or.inl ⟨id, file, asked, found, held⟩
          · exact Or.inr ⟨asked, held⟩

theorem signatureOf_url {file : RunFile} {signature : Signature}
    (read : signatureOf world file = .ok signature) : signature.url = file.url := by
  simp only [signatureOf] at read
  split at read
  · simp only [bind_ok, pure_ok] at read
    obtain ⟨_, _, rfl⟩ := read
    rfl
  · simp only [bind_ok, pure_ok] at read
    obtain ⟨_, _, rfl⟩ := read
    rfl

def signed (world : World) (id : String) (file : RunFile) : Option Signature :=
  if given file.fileId = some id then (signatureOf world file).toOption else none

/-- The run files of one file id declare the same, each as the one before it: the path, the URL,
the name, the type, the kind and the text of the content, as it is spelled. -/
structure References (world : World) (files : List RunFile) : Prop where
  readable : ∀ file ∈ files, given file.fileId ≠ none →
    ∃ signature, signatureOf world file = .ok signature
  agree : ∀ id, (files.filterMap (signed world id)).IsChain fun one two =>
    one.same world two = true

theorem lookup_noted {byFileId : List (String × Signature)} {signature : Signature}
    (first id : String) : ((first, signature) :: byFileId).lookup id =
      if id = first then some signature else byFileId.lookup id := by
  by_cases same : id = first
  · simp [same]
  · simp [List.lookup_cons, beq_eq_false_iff_ne.mpr same, same]

theorem validateRunFileReferences_ok {byFileId : List (String × Signature)}
    {files : List RunFile} {checked : Unit} :
    validateRunFileReferences world byFileId files = .ok checked ↔
      (∀ file ∈ files, given file.fileId ≠ none →
        ∃ signature, signatureOf world file = .ok signature) ∧
      ∀ id, ((byFileId.lookup id).toList ++ files.filterMap (signed world id)).IsChain
        fun one two => one.same world two = true := by
  induction files generalizing byFileId with
  | nil =>
      simp only [validateRunFileReferences, pure_ok, List.filterMap_nil, List.append_nil]
      refine iff_of_true trivial ⟨fun _ none => (by cases none), fun id => ?_⟩
      cases byFileId.lookup id <;> simp
  | cons file rest ih =>
      rw [validateRunFileReferences]
      cases own : given file.fileId with
      | none => simp [ih, own, signed]
      | some first =>
          cases read : signatureOf world file with
          | error error => simp [own, read, Bind.bind, Except.bind]
          | ok signature =>
              have declared : ∀ id, signed world id file =
                  if id = first then some signature else none := by
                intro id
                simp [signed, own, read, Except.toOption, eq_comm]
              -- The table holds the last signature of each file id.
              have onward : (∀ id, ((((first, signature) :: byFileId).lookup id).toList ++
                    rest.filterMap (signed world id)).IsChain fun one two =>
                      one.same world two = true) ∧
                  (∀ previous, byFileId.lookup first = some previous →
                    previous.same world signature = true) ↔
                  ∀ id, ((byFileId.lookup id).toList ++ (file :: rest).filterMap
                    (signed world id)).IsChain fun one two => one.same world two = true := by
                constructor
                · rintro ⟨chains, matching⟩ id
                  have chain := chains id
                  rw [lookup_noted] at chain
                  rw [List.filterMap_cons, declared]
                  by_cases same : id = first
                  · subst same
                    simp only [if_true, Option.toList_some, List.singleton_append] at chain ⊢
                    cases found : byFileId.lookup id with
                    | none => exact chain
                    | some previous => exact .cons_cons (matching previous found) chain
                  · simpa only [same, if_false] using chain
                · intro chains
                  have held := chains first
                  rw [List.filterMap_cons, declared] at held
                  simp only [if_true] at held
                  constructor
                  · intro id
                    rw [lookup_noted]
                    by_cases same : id = first
                    · subst same
                      simp only [if_true, Option.toList_some, List.singleton_append]
                      exact held.right_of_append
                    · have chain := chains id
                      rw [List.filterMap_cons, declared] at chain
                      simpa only [same, if_false] using chain
                  · intro previous found
                    rw [found] at held
                    exact (List.isChain_cons_cons.mp held).1
              have readable : (∀ one ∈ file :: rest, given one.fileId ≠ none →
                  ∃ signature, signatureOf world one = .ok signature) ↔
                  ∀ one ∈ rest, given one.fileId ≠ none →
                    ∃ signature, signatureOf world one = .ok signature := by
                simp [own, read]
              rw [readable, ← onward]
              simp only [bind_ok, Except.ok.injEq, exists_eq_left']
              cases found : byFileId.lookup first with
              | none => simp [ih]
              | some previous =>
                  by_cases same : previous.same world signature = true <;> simp [same, ih]

theorem references_iff {files : List RunFile} {checked : Unit} :
    validateRunFileReferences world [] files = .ok checked ↔ References world files := by
  rw [validateRunFileReferences_ok]
  exact ⟨fun ⟨readable, agree⟩ => ⟨readable, agree⟩, fun ⟨readable, agree⟩ => ⟨readable, agree⟩⟩

def SameUrl (one two : RunFile) : Prop :=
  ∀ id, given one.fileId = some id → given two.fileId = some id → one.url = two.url

instance : Std.Symm SameUrl where
  symm _ _ same id held other := (same id other held).symm

theorem References.urls {files : List RunFile} (references : References world files) :
    files.Pairwise SameUrl := by
  rw [List.pairwise_iff_getElem]
  intro i j early late before id one two
  have chain : (files.filterMap (signed world id)).IsChain fun one two => one.url = two.url := by
    refine (references.agree id).imp fun one two same => ?_
    simp only [Signature.same, Bool.and_eq_true, decide_eq_true_eq] at same
    exact same.1.1.1.1.2
  have equal := List.pairwise_filterMap.mp
    (List.isChain_iff_pairwise (R := fun one two : Signature => one.url = two.url) |>.mp chain)
  obtain ⟨first, read⟩ := references.readable files[i] (List.getElem_mem early) (by simp [one])
  obtain ⟨second, again⟩ := references.readable files[j] (List.getElem_mem late) (by simp [two])
  have same := List.pairwise_iff_getElem.mp equal i j early late before first
    (by simp [signed, one, read, Except.toOption]) second
    (by simp [signed, two, again, Except.toOption])
  exact (signatureOf_url read).symm.trans (same.trans (signatureOf_url again))

theorem given_some {value : Option String} {text : String} :
    given value = some text ↔ value = some text ∧ text ≠ "" := by
  cases value with
  | none => simp [given]
  | some own =>
      simp only [given, Option.filter_some]
      by_cases empty : own = ""
      · subst empty
        simp [eq_comm]
      · simp only [decide_eq_true_eq, ne_eq, empty, not_false_eq_true, if_true,
          Option.some.injEq]
        constructor
        · rintro rfl
          exact ⟨rfl, empty⟩
        · exact And.left

theorem urlPayload_ok {file : RunFile} {payload : FilePayload} (member : file ∈ client.files)
    (references : client.files.Pairwise SameUrl)
    (made : urlPayload world client file = .ok (some payload)) :
    ∃ url, given file.url = some url ∧ Downloaded world client url payload.data ∧
      payload.sourceKeys = file.sourceKeys none := by
  unfold urlPayload at made
  cases own : given file.url with
  | none => simp [own] at made
  | some url =>
      simp only [own, bind_ok, pure_ok, Option.some.injEq] at made
      obtain ⟨data, fetched, rfl⟩ := made
      refine ⟨url, rfl, ?_, rfl⟩
      obtain ⟨target, downloaded, origin⟩ := fetch_ok fetched
      rcases origin with ⟨id, first, asked, found, held⟩ | ⟨asked, held⟩
      · -- The first file with the id, whose URL the references have been compared with.
        obtain ⟨identified, nonempty⟩ := given_some.mp asked
        have same : first.fileId = some id := by simpa using List.find?_some found
        have urls : first.url = file.url := by
          by_cases equal : first = file
          · rw [equal]
          · exact references.forall (List.mem_of_find?_eq_some found) member equal id
              (given_some.mpr ⟨same, nonempty⟩) asked
        rw [urls, own] at held
        cases held
        exact downloaded
      · rw [asked] at held
        simp only [Option.isSome_none, Bool.false_eq_true, if_false] at held
        obtain ⟨equal, _⟩ := given_some.mp held
        cases equal
        exact downloaded

/-- Where an attached file comes from, and the checks it has passed. -/
inductive Admissible (world : World) (client : FileClient) (inputData : List (String × Json))
    (file : InputFile) : Prop
  | local_ (text path : String) :
      (text ∈ inputFilePaths inputData ∨ ∃ source ∈ client.files, source.localPath = .string text) →
      world.resolve text = .ok path → world.node path = some (some file.data) →
      (file.data.length : Int) ≤ client.maxFileSize →
      client.allows (normalized world file.mimeType) = true →
      Admissible world client inputData file
  | base64 (source : RunFile) : source ∈ client.files →
      source.meta "sourceType" = .string "BASE64" →
      Base64.decode (compact world (source.meta "content_base64")) = some file.data →
      (file.data.length : Int) ≤ client.maxFileSize →
      client.allows (normalized world file.mimeType) = true →
      Admissible world client inputData file
  | downloaded (source : RunFile) (url : String) : source ∈ client.files →
      given source.url = some url → Downloaded world client url file.data →
      Admissible world client inputData file

theorem runFilePayload_ok {inputData : List (String × Json)} {file : RunFile}
    {payload : FilePayload} (member : file ∈ client.files)
    (references : client.files.Pairwise SameUrl)
    (made : runFilePayload world client file = .ok (some payload)) :
    Admissible world client inputData payload.toInputFile ∧ payload.sourceKeys.Nodup := by
  have elsewhere (other : runFilePayload.elsewhere world client file = .ok (some payload)) :
      Admissible world client inputData payload.toInputFile ∧ payload.sourceKeys.Nodup := by
    unfold runFilePayload.elsewhere at other
    split at other
    · next kind =>
        obtain ⟨decoded, small, allowed, keys⟩ := base64Payload_ok other
        exact ⟨.base64 file member kind decoded small allowed, keys ▸ sourceKeys_nodup file none⟩
    · cases other
    · obtain ⟨url, own, downloaded, keys⟩ := urlPayload_ok member references other
      exact ⟨.downloaded file url member own downloaded, keys ▸ sourceKeys_nodup file none⟩
  unfold runFilePayload at made
  split at made
  · next text own =>
      split at made
      · exact elsewhere made
      · simp only [bind_ok] at made
        obtain ⟨path, resolved, made⟩ := made
        cases built : localFilePayload world client path file.fileName file.mimeType
            (file.sourceKeys (some path)) with
        | error error => simp [built] at made
        | ok payload_ =>
            rw [built] at made
            cases made
            obtain ⟨held, small, allowed, keys⟩ := localFilePayload_ok built
            refine ⟨.local_ text path (Or.inr ⟨file, member, own⟩) resolved held small allowed, ?_⟩
            rw [keys]
            split
            · exact List.nodup_singleton _
            · exact sourceKeys_nodup file (some path)
  · exact elsewhere made

structure Collected (world : World) (client : FileClient) (inputData : List (String × Json))
    (payloads : List FilePayload) : Prop where
  references : References world client.files
  made : ∃ listed attached,
    ((inputFilePaths inputData).mapM fun value => do
      let path ← world.resolve value
      localFilePayload world client path none none []) = .ok listed ∧
    client.files.mapM (runFilePayload world client) = .ok attached ∧
    payloads = listed ++ attached.filterMap id

theorem collect_ok {inputData : List (String × Json)} {payloads : List FilePayload} :
    collect world client inputData = .ok payloads ↔ Collected world client inputData payloads := by
  simp only [collect, bind_ok, pure_ok, references_iff]
  constructor
  · rintro ⟨listed, local_, _, references, attached, made, rfl⟩
    exact ⟨references, listed, attached, local_, made, rfl⟩
  · rintro ⟨references, listed, attached, local_, made, rfl⟩
    exact ⟨listed, local_, (), references, attached, made, rfl⟩

theorem Collected.admissible {inputData : List (String × Json)} {payloads : List FilePayload}
    (collected : Collected world client inputData payloads) : ∀ payload ∈ payloads,
      Admissible world client inputData payload.toInputFile ∧ payload.sourceKeys.Nodup := by
  obtain ⟨references, listed, attached, local_, made, rfl⟩ := collected
  intro payload member
  rcases List.mem_append.mp member with one | other
  · obtain ⟨value, named, built⟩ := mapM_results local_ payload one
    obtain ⟨path, resolved, built⟩ := bind_ok.mp built
    obtain ⟨held, small, allowed, keys⟩ := localFilePayload_ok built
    refine ⟨.local_ value path (Or.inl named) resolved held small allowed, ?_⟩
    rw [keys, if_pos rfl]
    exact List.nodup_singleton _
  · obtain ⟨found, inside, rfl⟩ := List.mem_filterMap.mp other
    obtain ⟨file, own, built⟩ := mapM_results made _ inside
    exact runFilePayload_ok own references.urls built

end Origins

section Attached

variable {world : World} {client : FileClient} {inputData : List (String × Json)}
  {attached : List InputFile}

theorem resolves_iff : resolveInputFiles world client inputData = .ok attached ↔ ∃ payloads,
    Collected world client inputData payloads ∧ payloads.Pairwise (Agree world) ∧
    attached = (firsts (digestOf world) payloads).map FilePayload.toInputFile := by
  simp only [resolveInputFiles, bind_ok, deduplicateFilePayloads, collect_ok]
  refine exists_congr fun payloads => and_congr_right fun collected => ?_
  have empty : Tables world [] [] [] := ⟨fun _ _ => by simp, fun _ => by simp⟩
  have distinct := fun payload member => (collected.admissible payload member).2
  rw [deduplicateFrom_ok empty distinct]
  simp [firsts]

/-- Every content is attached once, at its first place. The resolution fails if a payload cannot
be made, two run files of one file id are declared differently, or two payloads of one source
differ. -/
theorem attached_once :
    (resolveInputFiles world client inputData = .ok attached ↔ ∃ payloads,
      Collected world client inputData payloads ∧ payloads.Pairwise (Agree world) ∧
      attached = (firsts (digestOf world) payloads).map FilePayload.toInputFile) ∧
    ∀ payloads, Collected world client inputData payloads →
      resolveInputFiles world client inputData = .ok attached →
      (attached.map fun file => world.sha256 file.data).Nodup ∧ ∀ payload ∈ payloads,
        ∃ file ∈ attached, world.sha256 file.data = world.sha256 payload.data := by
  refine ⟨resolves_iff, fun payloads collected resolves => ?_⟩
  obtain ⟨found, again, _, rfl⟩ := resolves_iff.mp resolves
  have same := (collect_ok.mpr collected).symm.trans (collect_ok.mpr again)
  cases same
  constructor
  · have keys : ((firsts (digestOf world) payloads).map (digestOf world)).Nodup :=
      firstsFrom_keys.1
    rwa [List.map_map]
  · intro payload member
    have held : ∃ first ∈ firsts (digestOf world) payloads,
        digestOf world first = digestOf world payload := firstsFrom_cover member List.not_mem_nil
    obtain ⟨first, inside, same⟩ := held
    exact ⟨first.toInputFile, List.mem_map_of_mem inside, same⟩

/-- Every attached file stood at a local path or in a base64 text and has passed the checks of the
client, or was downloaded within its limit from the URL of a run file that the policy accepts. -/
theorem attached_admissible
    (resolves : resolveInputFiles world client inputData = .ok attached) :
    ∀ file ∈ attached, Admissible world client inputData file := by
  intro file member
  obtain ⟨payloads, collected, _, rfl⟩ := resolves_iff.mp resolves
  obtain ⟨payload, first, rfl⟩ := List.mem_map.mp member
  exact (collected.admissible payload (mem_firstsFrom first)).1

/-- A text in base64, whatever white space it is broken by, is attached with exactly the octets
that it stands for, and handed to the model as it was given; it is refused for its size exactly
if these octets are too many. -/
theorem base64_attached {file : RunFile} (local_ : ∀ text, file.localPath = .string text → text = "")
    (kind : file.meta "sourceType" = .string "BASE64")
    (content : (file.meta "content_base64").truthy = true) {octets : Bytes}
    (encoded : compact world (file.meta "content_base64") = Base64.encode octets)
    {mimeType : String}
    (typed : mimeType = orElse file.mimeType (guessMime world (orElse file.fileName ""))) :
    runFilePayload world client file = (do
      client.validateMimeType world mimeType
      client.validateSize octets.length (orElse file.fileName "BASE64 file")
      return some ⟨⟨orElse file.fileName "input-file", mimeType, octets⟩, file.sourceKeys none⟩) ∧
    dataUrlFor octets mimeType = "data:" ++ mimeType ++ ";base64," ++
      String.ofList (compact world (file.meta "content_base64")) := by
  have elsewhere : runFilePayload world client file = base64Payload world client file := by
    unfold runFilePayload
    split
    · next text own =>
        rw [if_pos (local_ text own)]
        simp only [runFilePayload.elsewhere, kind]
    · simp only [runFilePayload.elsewhere, kind]
  constructor
  · rw [elsewhere, base64Payload_encoded content encoded, typed]
  · rw [dataUrlFor, encoded]

end Attached

section Samples

/-- A host without files and network, whose digests are the contents themselves. -/
def offline : World where
  lower := Urls.lowerAscii
  lower_empty := Urls.lowerAscii_empty
  repr text := String.ofList text
  bracketsFault _ := none
  normalFault _ := none
  ipAddress _ := none
  getaddrinfo _ := .error ⟨.exception, "gaierror", "offline"⟩
  resolve path := .ok path
  nameOf path := path
  node _ := none
  guessType _ := some "text/plain"
  sha256 data := String.ofList (Base64.encode data)
  textHash text := text
  str value := match value with
    | .string text => text
    | _ => ""
  equal _ _ := true
  int _ := none
  get _ := .error ⟨.exception, "ConnectError", "offline"⟩
  statusError _ := ⟨.exception, "HTTPStatusError", ""⟩

def brokenFile : RunFile where
  fileName := some "note.txt"
  mimeType := some "text/plain"
  metadata := [("sourceType", .string "BASE64"), ("content_base64", .string "QU\nI=")]

def smallClient : FileClient where
  files := [brokenFile, brokenFile]
  maxFileSize := 2
  allowedMimeTypes := some ["text/plain".toList]
  outboundPolicy := {}

def online : World := { offline with
  node path := if path = "/data/a.txt" then some (some [65]) else none
  ipAddress text := if text = "93.184.216.34".toList then some ⟨"93.184.216.34", false, false, false,
    false, false, false⟩ else none
  getaddrinfo _ := .ok ["93.184.216.34".toList]
  get _ := .ok ⟨200, none, some "text/plain; charset=utf-8", [[66], [67]]⟩ }

def linkedFile : RunFile where
  fileId := some "f-1"
  url := some "https://h/c.txt"
  fileName := some "c.txt"
  mimeType := some "text/plain"

def threeKinds : FileClient := { smallClient with files := [brokenFile, linkedFile] }

def listedPath : List (String × Json) := [("file_path", .string "/data/a.txt")]

theorem attached_admissible_kinds :
    Admissible online threeKinds listedPath ⟨"/data/a.txt", "text/plain", [65]⟩ ∧
    Admissible online threeKinds listedPath ⟨"note.txt", "text/plain", [65, 66]⟩ ∧
    Admissible online threeKinds listedPath ⟨"c.txt", "text/plain", [66, 67]⟩ := by
  have resolves : resolveInputFiles online threeKinds listedPath = .ok
      [⟨"/data/a.txt", "text/plain", [65]⟩, ⟨"note.txt", "text/plain", [65, 66]⟩,
        ⟨"c.txt", "text/plain", [66, 67]⟩] := by
    rfl
  have all := attached_admissible resolves
  exact ⟨all _ (by simp), all _ (by simp), all _ (by simp)⟩

theorem base64_attached_broken :
    runFilePayload offline smallClient brokenFile = (do
      smallClient.validateMimeType offline "text/plain"
      smallClient.validateSize 2 "note.txt"
      return some ⟨⟨"note.txt", "text/plain", [65, 66]⟩, []⟩) ∧
    dataUrlFor [65, 66] "text/plain" = "data:" ++ "text/plain" ++ ";base64," ++
      String.ofList (compact offline (brokenFile.meta "content_base64")) := by
  have pathless : brokenFile.localPath = .null := rfl
  have encoded : compact offline (brokenFile.meta "content_base64") = Base64.encode [65, 66] := rfl
  refine base64_attached (fun text own => ?_) rfl rfl encoded rfl
  rw [pathless] at own
  cases own

end Samples

end AgentTaskPlatform.InputFiles
