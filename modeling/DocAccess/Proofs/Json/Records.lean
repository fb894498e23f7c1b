import DocAccess.Json.Record
import DocAccess.Proofs.Json.Text
import DocAccess.Proofs.Time.Rfc3339
import DocAccess.Proofs.Uuid.Spelling

/-!
# Records read back

Records survive their JSON form: the text of a record is read as the record. So is every other
spelling of it, with its members in any order and among unknown ones, absent texts null or left
out, and identifiers in any form that is accepted; what is read is written in the one form.
-/

set_option autoImplicit false

namespace DocAccess

/-! ## Objects -/

namespace Json

/-- The members of the fields that are there. -/
def present (fields : List (String × Option Json)) : List (String × Json) :=
  fields.filterMap fun (name, value) => value.map (name, ·)

/-- An object that gives a record its fields, in any order and among unknown members. -/
inductive Gives (fields : List (String × Option Json)) : Json → Prop
  | intro {members unknown : List (String × Json)} :
      members.Perm (present fields ++ unknown) →
      (∀ entry ∈ unknown, entry.1 ∉ fields.map (·.1)) →
      Gives fields (.record members)

private theorem present_all (members : List (String × Json)) :
    present (members.map fun (name, value) => (name, some value)) = members := by
  induction members with
  | nil => rfl
  | cons entry members ih => exact congrArg (entry :: ·) ih

theorem gives_all {fields : List (String × Option Json)} {members : List (String × Json)}
    {json : Json} (object : json = .record members)
    (all : fields = members.map fun (name, value) => (name, some value)) : Gives fields json := by
  have whole : members.Perm (present fields ++ []) := by rw [all, present_all, List.append_nil]
  rw [object]
  exact .intro whole fun _ mem => by cases mem

private theorem name_of_mem_present {fields : List (String × Option Json)} {entry : String × Json}
    (mem : entry ∈ present fields) : entry.1 ∈ fields.map (·.1) := by
  obtain ⟨⟨name, value⟩, field, found⟩ := List.mem_filterMap.mp mem
  obtain ⟨content, -, rfl⟩ := Option.map_eq_some_iff.mp found
  exact List.mem_map.mpr ⟨(name, value), field, rfl⟩

theorem filter_eq_nil_of_names {members : List (String × Json)} {name : String}
    (other : ∀ entry ∈ members, entry.1 ≠ name) :
    members.filter (fun entry => entry.1 = name) = [] :=
  List.filter_eq_nil_iff.mpr fun entry mem => by simpa using other entry mem

private theorem present_cons (name : String) (value : Option Json)
    (fields : List (String × Option Json)) : present ((name, value) :: fields) =
      (value.map fun value => (name, value)).toList ++ present fields := by
  cases value <;> rfl

/-- Among the members of the fields that are there, a field is found by its name. -/
private theorem filter_present {fields : List (String × Option Json)} {name : String}
    {value : Option Json} (distinct : (fields.map (·.1)).Nodup) (mem : (name, value) ∈ fields) :
    (present fields).filter (fun entry => entry.1 = name) =
      (value.map fun value => (name, value)).toList := by
  induction fields with
  | nil => cases mem
  | cons field fields ih =>
      obtain ⟨first, given⟩ := field
      obtain ⟨fresh, distinct⟩ := List.nodup_cons.mp distinct
      rw [present_cons, List.filter_append]
      rcases List.mem_cons.mp mem with here | later
      · cases here
        have others : (present fields).filter (fun entry => entry.1 = name) = [] := by
          refine filter_eq_nil_of_names ?_
          rintro entry among rfl
          exact fresh (name_of_mem_present among)
        rw [others, List.append_nil]
        cases value <;> simp
      · have named : name ∈ fields.map (·.1) := List.mem_map.mpr ⟨(name, value), later, rfl⟩
        have other : first ≠ name := fun same => fresh (same ▸ named)
        rw [ih distinct later]
        cases given <;> simp [other]

/-- The value that the members have for a name, of which there may be one at most. -/
def valueOf? (members : List (String × Json)) (name : String) : Option (Option Json) :=
  match members.filter fun entry => entry.1 = name with
  | [] => some none
  | [(_, value)] => some (some value)
  | _ => none

private theorem filter_named (members : List (String × Json)) (name : String) :
    (named members).filter (fun entry => entry.1 = some name) =
      named (members.filter fun entry => entry.1 = name) := by
  simp [named, List.filter_map, Function.comp_def]

private theorem fields?_record (members : List (String × Json)) (names : List String) :
    (record members).fields? names = names.mapM (valueOf? members) := by
  have object : record members = .object (named members) := rfl
  have namesGiven : ((named members).all fun entry => entry.1.isSome) = true := by simp [named]
  rw [object, fields?, if_pos namesGiven]
  congr 1
  funext name
  rw [filter_named, valueOf?]
  generalize members.filter (fun entry => entry.1 = name) = kept
  rcases kept with _ | ⟨entry, _ | ⟨second, others⟩⟩ <;> rfl

private theorem valueOf?_of_gives {fields : List (String × Option Json)}
    {members unknown : List (String × Json)} (distinct : (fields.map (·.1)).Nodup)
    (whole : members.Perm (present fields ++ unknown))
    (others : ∀ entry ∈ unknown, entry.1 ∉ fields.map (·.1)) {name : String} {value : Option Json}
    (mem : (name, value) ∈ fields) : valueOf? members name = some value := by
  have noise : unknown.filter (fun entry => entry.1 = name) = [] := by
    refine filter_eq_nil_of_names ?_
    rintro entry unnamed rfl
    exact others entry unnamed (List.mem_map.mpr ⟨_, mem, rfl⟩)
  have kept := whole.filter fun entry => entry.1 = name
  rw [List.filter_append, filter_present distinct mem, noise, List.append_nil] at kept
  cases value with
  | none => rw [valueOf?, kept.eq_nil]
  | some value => rw [valueOf?, kept.eq_singleton]

/-- The fields of a record are found in any object that gives them. -/
theorem fields?_of_gives {fields : List (String × Option Json)} {json : Json}
    (distinct : (fields.map (·.1)).Nodup) (gives : Gives fields json) :
    json.fields? (fields.map (·.1)) = some (fields.map (·.2)) := by
  obtain @⟨members, unknown, whole, others⟩ := gives
  have found (entry : String × Option Json) (mem : entry ∈ fields) :
      valueOf? members entry.1 = some entry.2 :=
    valueOf?_of_gives distinct whole others mem
  rw [fields?_record]
  clear distinct whole others
  induction fields with
  | nil => rfl
  | cons entry fields ih =>
      have tail := ih fun entry mem => found entry (List.mem_cons_of_mem _ mem)
      simp [List.mapM_cons, found entry List.mem_cons_self, tail]

/-! ## Spellings -/

/-- The field of an optional text; one that is absent is null or left out. -/
inductive GivesText : Option String → Option Json → Prop
  | given (content : String) : GivesText (some content) (some (.str content))
  | null : GivesText none (some .null)
  | absent : GivesText none none

theorem optional?_of_gives {text : Option String} {field : Option Json}
    (gives : GivesText text field) : optional? field = some text := by
  cases gives <;> rfl

theorem givesText_optionalJson (text : Option String) :
    GivesText text (some (optionalJson text)) := by
  cases text with
  | none => exact .null
  | some content => exact .given content

end Json

/-- Values whose JSON form is one of several spellings, all of which are read. -/
class SpelledForm (α : Type) [JsonForm α] where
  Spells : α → Json → Prop
  spells_toJson : ∀ value, Spells value (JsonForm.toJson value)
  wellFormed_toJson : ∀ value : α, (JsonForm.toJson value).WellFormed
  ofJson?_of_spells : ∀ {value json}, Spells value json → JsonForm.ofJson? json = some value

open SpelledForm (Spells)

theorem required?_of_spells {α : Type} [JsonForm α] [SpelledForm α] {value : α} {json : Json}
    (spelled : Spells value json) : Json.required? (some json) = some value :=
  SpelledForm.ofJson?_of_spells spelled

/-- An identifier is spelled in any of the accepted forms. -/
inductive Uuid.SpelledJson (id : Uuid) : Json → Prop
  | intro {source : String} : id.Spelling source.toList → SpelledJson id (.str source)

instance : SpelledForm Uuid where
  Spells := Uuid.SpelledJson
  spells_toJson id := .intro id.spelling_text
  wellFormed_toJson _ := .str _
  ofJson?_of_spells := by
    rintro id _ ⟨spelling⟩
    exact Uuid.ofText?_eq_some_iff.mpr spelling

instance {kind : IdKind} : SpelledForm (Id kind) where
  Spells id := Uuid.SpelledJson id.uuid
  spells_toJson id := .intro id.uuid.spelling_text
  wellFormed_toJson _ := .str _
  ofJson?_of_spells := by
    rintro id _ ⟨spelling⟩
    exact congrArg (Option.map Id.mk) (Uuid.ofText?_eq_some_iff.mpr spelling)

theorem ofJson?_civil (time : CivilTime) :
    (JsonForm.ofJson? (JsonForm.toJson time) : Option CivilTime) = some time := by
  simp only [JsonForm.ofJson?, JsonForm.toJson, Json.str, Json.str?, Option.bind_some,
    Rfc3339.ofText?_text]

private theorem ofJson?_timestamp (time : Timestamp) :
    (JsonForm.ofJson? (JsonForm.toJson time) : Option Timestamp) = some time := by
  have civil := ofJson?_civil time.civil
  have point : ((JsonForm.ofJson? (JsonForm.toJson time.civil)).bind
      CivilTime.timestamp? : Option Timestamp) = some time := by
    rw [civil, Option.bind_some, CivilTime.timestamp?_civil]
  exact point

/-- The form of values that have no spelling but their own. -/
@[reducible]
def SpelledForm.single {α : Type} [JsonForm α]
    (wellFormed : ∀ value : α, (JsonForm.toJson value).WellFormed)
    (read : ∀ value : α, JsonForm.ofJson? (JsonForm.toJson value) = some value) :
    SpelledForm α where
  Spells value json := json = JsonForm.toJson value
  spells_toJson _ := rfl
  wellFormed_toJson := wellFormed
  ofJson?_of_spells := by
    rintro value _ rfl
    exact read value

instance : SpelledForm CivilTime := .single (fun _ => .str _) ofJson?_civil

instance : SpelledForm Timestamp := .single (fun _ => .str _) ofJson?_timestamp

instance : SpelledForm PermissionLevel :=
  .single (fun _ => .str _) fun level => by cases level <;> rfl

instance : SpelledForm RecipientType :=
  .single (fun _ => .str _) fun recipient => by cases recipient <;> rfl

instance : SpelledForm SortField :=
  .single (fun _ => .str _) fun field => by cases field <;> rfl

/-! ## Records

A record is spelled by an object that gives its fields, each of which spells its value. -/

private theorem wellFormed_optionalJson (text : Option String) :
    (optionalJson text).WellFormed := by
  cases text with
  | none => exact .null
  | some content => exact .str content

section Records

variable {Time : Type} [JsonForm Time] [SpelledForm Time]

inductive Document.SpelledJson (document : Document Time) : Json → Prop
  | intro {id createdAt lastModifiedAt json : Json} {name description : Option Json} :
      Json.Gives [("id", some id), ("name", name), ("description", description),
        ("created_at", some createdAt), ("last_modified_at", some lastModifiedAt)] json →
      Spells document.id id → Json.GivesText document.name name →
      Json.GivesText document.description description → Spells document.createdAt createdAt →
      Spells document.lastModifiedAt lastModifiedAt → SpelledJson document json

instance : SpelledForm (Document Time) where
  Spells := Document.SpelledJson
  spells_toJson _ :=
    .intro (Json.gives_all rfl rfl) (SpelledForm.spells_toJson _) (Json.givesText_optionalJson _)
      (Json.givesText_optionalJson _) (SpelledForm.spells_toJson _) (SpelledForm.spells_toJson _)
  wellFormed_toJson document := by
    refine .record ?_
    simp [SpelledForm.wellFormed_toJson, wellFormed_optionalJson]
  ofJson?_of_spells := by
    rintro document json ⟨gives, id, name, description, createdAt, lastModifiedAt⟩
    have fields := Json.fields?_of_gives (by simp) gives
    simp only [List.map_cons, List.map_nil] at fields
    simp [JsonForm.ofJson?, fields, required?_of_spells id, Json.optional?_of_gives name,
      Json.optional?_of_gives description, required?_of_spells createdAt,
      required?_of_spells lastModifiedAt]

inductive DocumentPermission.SpelledJson (row : DocumentPermission Time) : Json → Prop
  | intro {document level json : Json} :
      Json.Gives [("document", some document), ("level", some level)] json →
      Spells row.document document → Spells row.level level → SpelledJson row json

instance : SpelledForm (DocumentPermission Time) where
  Spells := DocumentPermission.SpelledJson
  spells_toJson _ :=
    .intro (Json.gives_all rfl rfl) (SpelledForm.spells_toJson _) (SpelledForm.spells_toJson _)
  wellFormed_toJson row := by
    refine .record ?_
    simp [SpelledForm.wellFormed_toJson]
  ofJson?_of_spells := by
    rintro row json ⟨gives, document, level⟩
    have fields := Json.fields?_of_gives (by simp) gives
    simp only [List.map_cons, List.map_nil] at fields
    simp [JsonForm.ofJson?, fields, required?_of_spells document, required?_of_spells level]

inductive Permission.SpelledJson (row : Permission Time) : Json → Prop
  | intro {documentId recipientId recipientType level createdBy createdAt lastModifiedAt json :
      Json} :
      Json.Gives [("document_id", some documentId), ("recipient_id", some recipientId),
        ("recipient_type", some recipientType), ("level", some level),
        ("created_by", some createdBy), ("created_at", some createdAt),
        ("last_modified_at", some lastModifiedAt)] json →
      Spells row.documentId documentId → Spells row.recipientId recipientId →
      Spells row.recipientType recipientType → Spells row.level level →
      Spells row.createdBy createdBy → Spells row.createdAt createdAt →
      Spells row.lastModifiedAt lastModifiedAt → SpelledJson row json

instance : SpelledForm (Permission Time) where
  Spells := Permission.SpelledJson
  spells_toJson _ :=
    .intro (Json.gives_all rfl rfl) (SpelledForm.spells_toJson _) (SpelledForm.spells_toJson _)
      (SpelledForm.spells_toJson _) (SpelledForm.spells_toJson _) (SpelledForm.spells_toJson _)
      (SpelledForm.spells_toJson _) (SpelledForm.spells_toJson _)
  wellFormed_toJson row := by
    refine .record ?_
    simp [SpelledForm.wellFormed_toJson]
  ofJson?_of_spells := by
    rintro row json ⟨gives, documentId, recipientId, recipientType, level, createdBy, createdAt,
      lastModifiedAt⟩
    have fields := Json.fields?_of_gives (by simp) gives
    simp only [List.map_cons, List.map_nil] at fields
    simp [JsonForm.ofJson?, fields, required?_of_spells documentId, required?_of_spells recipientId,
      required?_of_spells recipientType, required?_of_spells level, required?_of_spells createdBy,
      required?_of_spells createdAt, required?_of_spells lastModifiedAt]

inductive Guest.SpelledJson (guest : Guest Time) : Json → Prop
  | intro {id documentId createdBy createdAt json : Json} :
      Json.Gives [("id", some id), ("document_id", some documentId),
        ("created_by", some createdBy), ("created_at", some createdAt)] json →
      Spells guest.id id → Spells guest.documentId documentId → Spells guest.createdBy createdBy →
      Spells guest.createdAt createdAt → SpelledJson guest json

instance : SpelledForm (Guest Time) where
  Spells := Guest.SpelledJson
  spells_toJson _ :=
    .intro (Json.gives_all rfl rfl) (SpelledForm.spells_toJson _) (SpelledForm.spells_toJson _)
      (SpelledForm.spells_toJson _) (SpelledForm.spells_toJson _)
  wellFormed_toJson guest := by
    refine .record ?_
    simp [SpelledForm.wellFormed_toJson]
  ofJson?_of_spells := by
    rintro guest json ⟨gives, id, documentId, createdBy, createdAt⟩
    have fields := Json.fields?_of_gives (by simp) gives
    simp only [List.map_cons, List.map_nil] at fields
    simp [JsonForm.ofJson?, fields, required?_of_spells id, required?_of_spells documentId,
      required?_of_spells createdBy, required?_of_spells createdAt]

inductive Cursor.SpelledJson (cursor : Cursor Time) : Json → Prop
  | intro {sortField lastSeenTime lastSeenId json : Json} :
      Json.Gives [("sort_field", some sortField), ("last_seen_time", some lastSeenTime),
        ("last_seen_id", some lastSeenId)] json →
      Spells cursor.sortField sortField → Spells cursor.lastSeenTime lastSeenTime →
      Spells cursor.lastSeenId lastSeenId → SpelledJson cursor json

instance : SpelledForm (Cursor Time) where
  Spells := Cursor.SpelledJson
  spells_toJson _ :=
    .intro (Json.gives_all rfl rfl) (SpelledForm.spells_toJson _) (SpelledForm.spells_toJson _)
      (SpelledForm.spells_toJson _)
  wellFormed_toJson cursor := by
    refine .record ?_
    simp [SpelledForm.wellFormed_toJson]
  ofJson?_of_spells := by
    rintro cursor json ⟨gives, sortField, lastSeenTime, lastSeenId⟩
    have fields := Json.fields?_of_gives (by simp) gives
    simp only [List.map_cons, List.map_nil] at fields
    simp [JsonForm.ofJson?, fields, required?_of_spells sortField,
      required?_of_spells lastSeenTime, required?_of_spells lastSeenId]

end Records

inductive DocumentFields.SpelledJson (fields : DocumentFields) : Json → Prop
  | intro {name description : Option Json} {json : Json} :
      Json.Gives [("name", name), ("description", description)] json →
      Json.GivesText fields.name name → Json.GivesText fields.description description →
      SpelledJson fields json

instance : SpelledForm DocumentFields where
  Spells := DocumentFields.SpelledJson
  spells_toJson _ :=
    .intro (Json.gives_all rfl rfl) (Json.givesText_optionalJson _) (Json.givesText_optionalJson _)
  wellFormed_toJson fields := by
    refine .record ?_
    simp [wellFormed_optionalJson]
  ofJson?_of_spells := by
    rintro fields json ⟨gives, name, description⟩
    have found := Json.fields?_of_gives (by simp) gives
    simp only [List.map_cons, List.map_nil] at found
    simp [JsonForm.ofJson?, found, Json.optional?_of_gives name,
      Json.optional?_of_gives description]

/-- The name of its case is the only member of a principal. -/
inductive Principal.SpelledJson : Principal → Json → Prop
  | user {id : UserId} {json : Json} : Spells id json →
      SpelledJson (.user id) (.record [("User", json)])
  | guest {id : GuestId} {json : Json} : Spells id json →
      SpelledJson (.guest id) (.record [("Guest", json)])

instance : SpelledForm Principal where
  Spells := Principal.SpelledJson
  spells_toJson
    | .user _ => .user (SpelledForm.spells_toJson _)
    | .guest _ => .guest (SpelledForm.spells_toJson _)
  wellFormed_toJson principal := by
    cases principal with
    | user id => exact .record (by simp [SpelledForm.wellFormed_toJson])
    | guest id => exact .record (by simp [SpelledForm.wellFormed_toJson])
  ofJson?_of_spells := by
    rintro principal json spelled
    cases spelled with
    | user id => exact congrArg (Option.map Principal.user) (SpelledForm.ofJson?_of_spells id)
    | guest id => exact congrArg (Option.map Principal.guest) (SpelledForm.ofJson?_of_spells id)

/-! ## Texts -/

/-- The values of a type survive their JSON form. -/
structure SurvivesJson (α : Type) [JsonForm α] [SpelledForm α] : Prop where
  /-- The text of a value is read as the value. -/
  read_write : ∀ value : α, JsonForm.read? (JsonForm.write value) = some value
  /-- Different values have different texts. -/
  write_injective : ∀ a b : α, JsonForm.write a = JsonForm.write b → a = b
  /-- Every text that spells a value is read as the value. -/
  read_spelled : ∀ (value : α) (json : Json) (source : String), Json.parse? source = some json →
    Spells value json → JsonForm.read? source = some value
  /-- What is read from such a text is written in the one form. -/
  rewrite_spelled : ∀ (value : α) (json : Json) (source : String),
    Json.parse? source = some json → Spells value json →
      (JsonForm.read? source : Option α).map JsonForm.write = some (JsonForm.write value)
  /-- The text of a spelling is one of these, whatever well-formed members are unknown. -/
  read_render : ∀ (value : α) (json : Json), json.WellFormed → Spells value json →
    JsonForm.read? json.render = some value

private theorem SurvivesJson.ofSpelledForm (α : Type) [JsonForm α] [SpelledForm α] :
    SurvivesJson α := by
  have spelled (value : α) (json : Json) (source : String) (parsed : Json.parse? source = some json)
      (spells : Spells value json) : JsonForm.read? source = some value := by
    rw [JsonForm.read?, parsed, Option.bind_some, SpelledForm.ofJson?_of_spells spells]
  have read (value : α) : JsonForm.read? (JsonForm.write value) = some value :=
    spelled value _ _ (Json.parse?_render (SpelledForm.wellFormed_toJson value))
      (SpelledForm.spells_toJson value)
  refine ⟨read, fun a b same => ?_, spelled, fun value json source parsed spells => ?_,
    fun value json wellFormed => spelled value json _ (Json.parse?_render wellFormed)⟩
  · have both : some a = some b := by rw [← read a, ← read b, same]
    exact Option.some.inj both
  · rw [spelled value json source parsed spells, Option.map_some]

/-- The records with times survive their JSON form, given that of the times. -/
structure RecordsSurviveJson (Time : Type) [JsonForm Time] [SpelledForm Time] : Prop where
  document : SurvivesJson (Document Time)
  documentPermission : SurvivesJson (DocumentPermission Time)
  permission : SurvivesJson (Permission Time)
  guest : SurvivesJson (Guest Time)
  cursor : SurvivesJson (Cursor Time)

/-- All records survive their JSON form: at every point in time, to the nanosecond and in every
year of the calendar, and with civil times also in leap seconds. -/
theorem records_survive_json :
    RecordsSurviveJson Timestamp ∧ RecordsSurviveJson CivilTime ∧ SurvivesJson DocumentFields ∧
      SurvivesJson Principal :=
  ⟨⟨.ofSpelledForm _, .ofSpelledForm _, .ofSpelledForm _, .ofSpelledForm _, .ofSpelledForm _⟩,
    ⟨.ofSpelledForm _, .ofSpelledForm _, .ofSpelledForm _, .ofSpelledForm _, .ofSpelledForm _⟩,
    .ofSpelledForm _, .ofSpelledForm _⟩

/-- A guest whose members are in reverse and after one that is unknown, and whose identifiers are
spelled in three more ways. -/
def scrambledGuest : Json :=
  let members := [
    ("id", Json.str (String.ofList ('{' :: Uuid.max.chars ++ ['}']))),
    ("document_id", .str (String.ofList ("URN:uuid:".toList ++ Uuid.max.chars))),
    ("created_by", .str (String.ofList ((Hex.encode Uuid.max.bytes).map Char.toUpper))),
    ("created_at", JsonForm.toJson (default : Timestamp))]
  .record (members ++ [("remark", Json.array [.null, .str "\"\\\n"])]).reverse

theorem scrambled_guest_read : JsonForm.read? scrambledGuest.render =
    some (⟨⟨Uuid.max⟩, ⟨Uuid.max⟩, ⟨Uuid.max⟩, default⟩ : Guest) := by
  have wellFormed : scrambledGuest.WellFormed := by
    refine .record fun entry mem => ?_
    rw [List.mem_reverse] at mem
    revert entry
    simp only [List.cons_append, List.nil_append, List.forall_mem_cons]
    refine ⟨.str _, .str _, .str _, SpelledForm.wellFormed_toJson _, .array ?_,
      fun _ none => by cases none⟩
    simp only [List.forall_mem_cons]
    exact ⟨.null, .str _, fun _ none => by cases none⟩
  have braced : Uuid.max.Spelling (String.ofList ('{' :: Uuid.max.chars ++ ['}'])).toList := by
    rw [String.toList_ofList]
    exact .braced Uuid.max.digits_encode
  have marked : Uuid.max.Spelling
      (String.ofList ("URN:uuid:".toList ++ Uuid.max.chars)).toList := by
    rw [String.toList_ofList]
    exact .marked (by decide) Uuid.max.digits_encode
  have plain : Uuid.max.Spelling
      (String.ofList ((Hex.encode Uuid.max.bytes).map Char.toUpper)).toList := by
    rw [String.toList_ofList]
    exact .plain (by unfold Uuid.Digits; decide)
  have spelled : SpelledForm.Spells (⟨⟨Uuid.max⟩, ⟨Uuid.max⟩, ⟨Uuid.max⟩, default⟩ : Guest)
      scrambledGuest :=
    .intro (.intro (List.reverse_perm _) (by simp)) (.intro braced) (.intro marked)
      (.intro plain) rfl
  exact records_survive_json.1.guest.read_render _ _ wellFormed spelled

end DocAccess
