import Airlock.Call
import Airlock.Document.Handlers
import Airlock.Proofs.Json.Records

/-!
# The texts of documents

A call sets the text of a document when it opens the document or changes it at least once, with
params that are well-formed in full. No call sets two texts, and a call that sets none leaves the
store as it is. So the text of a document after any calls is the one that the last call to set it
gave, and a question about a position is answered from that text, or refused with the name of the
document when no call ever set one.
-/

set_option autoImplicit false

namespace Airlock.Document

open Json

/-! ## Well-formed params -/

/-- The params open a document with a text. -/
def Opens (params : Value) (uri text : String) : Prop :=
  ∃ item, params.Holds ["textDocument"] [item] ∧
    item.Holds ["uri", "text"] [.string uri, .string text]

/-- The params change a document to each of the texts in turn. -/
def Changes (params : Value) (uri : String) (texts : List String) : Prop :=
  ∃ document changes,
    params.Holds ["textDocument", "contentChanges"] [document, .array changes] ∧
    document.Holds ["uri"] [.string uri] ∧
    List.Forall₂ (fun change text => change.Holds ["text"] [.string text]) changes texts

/-- The params ask about a position in a document. -/
def Asks (params : Value) (uri : String) (position : Position) : Prop :=
  ∃ document place line character,
    params.Holds ["textDocument", "position"] [document, place] ∧
    document.Holds ["uri"] [.string uri] ∧
    place.Holds ["line", "character"] [line, character] ∧
    line.Counts position.line ∧ character.Counts position.character

/-- The call sets the text of a document. Of several changes the last one counts. -/
inductive Sets (call : Call) (uri text : String) : Prop where
  | opened (method : call.method = Methods.didOpen) (opens : Opens call.params uri text)
  | changed (method : call.method = Methods.didChange) {texts : List String}
      (changes : Changes call.params uri texts) (last : texts.getLast? = some text)

/-- The call sets no text: its params are malformed somewhere, or there is no change in them, or its
method is about something else. -/
inductive Silent (call : Call) : Prop where
  | unopened (method : call.method = Methods.didOpen)
      (malformed : ∀ uri text, ¬ Opens call.params uri text)
  | unchanged (method : call.method = Methods.didChange)
      (malformed : ∀ uri texts, ¬ Changes call.params uri texts)
  | noChanges (method : call.method = Methods.didChange) {uri : String}
      (none : Changes call.params uri [])
  | other (unopening : call.method ≠ Methods.didOpen) (unchanging : call.method ≠ Methods.didChange)

/-- Of the calls that set the text of the document the last one set it to this. -/
def LastSet (calls : List Call) (uri text : String) : Prop :=
  ∃ before call behind, calls = before ++ call :: behind ∧ Sets call uri text ∧
    ∀ later ∈ behind, ∀ other, ¬ Sets later uri other

def NeverSet (calls : List Call) (uri : String) : Prop :=
  ∀ call ∈ calls, ∀ text, ¬ Sets call uri text

/-! ## Reading params -/

variable {params : Value} {uri text : String}

private theorem documentDecoder_iff {value : Value} (wellFormed : value.WellFormed) :
    documentDecoder value = .ok uri ↔ value.Holds ["uri"] [.string uri] := by
  rw [documentDecoder, Fields.read_one_iff wellFormed]
  simp [Decoder.string_eq_ok_iff]

private theorem changeDecoder_iff {value : Value} (wellFormed : value.WellFormed) :
    changeDecoder value = .ok text ↔ value.Holds ["text"] [.string text] := by
  rw [changeDecoder, Fields.read_one_iff wellFormed]
  simp [Decoder.string_eq_ok_iff]

private theorem openDecoder_iff (wellFormed : params.WellFormed) {item : TextItem} :
    openDecoder params = .ok item ↔ Opens params item.uri item.text := by
  rw [openDecoder, Fields.read_one_iff wellFormed]
  refine exists_congr fun part => and_congr_right fun holds => ?_
  have inner : part.WellFormed := wellFormed.part holds List.mem_cons_self
  rw [TextItem.decoder, Fields.read_two_iff inner (by decide)]
  obtain ⟨uri, text⟩ := item
  simp [Decoder.string_eq_ok_iff]

private theorem changesDecoder_iff (wellFormed : params.WellFormed) {texts : List String} :
    changesDecoder params = .ok (uri, texts) ↔ Changes params uri texts := by
  rw [changesDecoder, Fields.read_two_iff wellFormed (by decide)]
  constructor
  · rintro ⟨document, _, _, _, holds, named, listed, ⟨⟩⟩
    obtain ⟨changes, rfl, read⟩ := Decoder.list_eq_ok_iff.mp listed
    obtain ⟨whole, items⟩ := wellFormed.two holds
    refine ⟨document, changes, holds, (documentDecoder_iff whole).mp named, ?_⟩
    refine ((List.forall₂_and_left _ _).mpr ⟨Value.itemsWellFormed_iff.mp items, read⟩).imp ?_
    exact fun change text ⟨fits, read⟩ => (changeDecoder_iff fits).mp read
  · rintro ⟨document, changes, holds, named, spelled⟩
    obtain ⟨whole, items⟩ := wellFormed.two holds
    refine ⟨document, .array changes, uri, texts, holds, (documentDecoder_iff whole).mpr named,
      Decoder.list_eq_ok_iff.mpr ⟨changes, rfl, ?_⟩, rfl⟩
    refine ((List.forall₂_and_left _ _).mpr ⟨Value.itemsWellFormed_iff.mp items, spelled⟩).imp ?_
    exact fun change text ⟨fits, spelled⟩ => (changeDecoder_iff fits).mpr spelled

private theorem positionDecoder_iff {place : Value} (wellFormed : place.WellFormed)
    {position : Position} :
    positionDecoder place = .ok position ↔ ∃ line character,
      place.Holds ["line", "character"] [line, character] ∧ line.Counts position.line ∧
        character.Counts position.character := by
  rw [positionDecoder, Fields.read_two_iff wellFormed (by decide)]
  constructor
  · rintro ⟨line, character, row, column, holds, rowRead, columnRead, rfl⟩
    exact ⟨line, character, holds, Decoder.size_eq_ok_iff.mp rowRead,
      Decoder.size_eq_ok_iff.mp columnRead⟩
  · rintro ⟨line, character, holds, rowCounts, columnCounts⟩
    obtain ⟨row, rowRead, rowSame⟩ := Decoder.size_of_counts rowCounts
    obtain ⟨column, columnRead, columnSame⟩ := Decoder.size_of_counts columnCounts
    refine ⟨line, character, row, column, holds, rowRead, columnRead, ?_⟩
    rw [rowSame, columnSame]

private theorem questionDecoder_iff (wellFormed : params.WellFormed) {position : Position} :
    questionDecoder params = .ok (uri, position) ↔ Asks params uri position := by
  rw [questionDecoder, Fields.read_two_iff wellFormed (by decide)]
  constructor
  · rintro ⟨document, place, _, _, holds, named, placed, ⟨⟩⟩
    obtain ⟨whole, inner⟩ := wellFormed.two holds
    obtain ⟨line, character, spelled, row, column⟩ := (positionDecoder_iff inner).mp placed
    exact ⟨document, place, line, character, holds, (documentDecoder_iff whole).mp named, spelled,
      row, column⟩
  · rintro ⟨document, place, line, character, holds, named, spelled, row, column⟩
    obtain ⟨whole, inner⟩ := wellFormed.two holds
    exact ⟨document, place, uri, position, holds, (documentDecoder_iff whole).mpr named,
      (positionDecoder_iff inner).mpr ⟨line, character, spelled, row, column⟩, rfl⟩

/-! ## What one call sets -/

private theorem Opens.unique {other new : String} (opens : Opens params uri text)
    (also : Opens params other new) : other = uri ∧ new = text := by
  obtain ⟨item, holds, spelled⟩ := opens
  obtain ⟨_, holdsAlso, spelledAlso⟩ := also
  obtain ⟨⟩ := holds.unique holdsAlso
  obtain ⟨⟩ := spelled.unique spelledAlso
  exact ⟨rfl, rfl⟩

private theorem Changes.unique {other : String} {texts others : List String}
    (changes : Changes params uri texts) (also : Changes params other others) :
    other = uri ∧ others = texts := by
  obtain ⟨document, given, holds, named, spelled⟩ := changes
  obtain ⟨_, _, holdsAlso, namedAlso, spelledAlso⟩ := also
  obtain ⟨⟩ := holds.unique holdsAlso
  obtain ⟨⟩ := named.unique namedAlso
  refine ⟨rfl, List.right_unique_forall₂' (fun change text new one two => ?_) spelledAlso spelled⟩
  obtain ⟨⟩ := one.unique two
  rfl

/-- A call sets at most one text. -/
theorem Sets.unique {call : Call} {other new : String} (sets : Sets call uri text)
    (also : Sets call other new) : other = uri ∧ new = text := by
  have apart : Methods.didOpen ≠ Methods.didChange := by decide
  cases sets with
  | opened method opens =>
    cases also with
    | opened _ opensAlso => exact opens.unique opensAlso
    | changed methodAlso => exact absurd (method.symm.trans methodAlso) apart
  | changed method changes last =>
    cases also with
    | opened methodAlso => exact absurd (methodAlso.symm.trans method) apart
    | changed _ changesAlso lastAlso =>
      obtain ⟨same, rfl⟩ := changes.unique changesAlso
      exact ⟨same, Option.some.inj (lastAlso.symm.trans last)⟩

private theorem silent_iff {call : Call} : Silent call ↔ ∀ uri text, ¬ Sets call uri text := by
  constructor
  · intro silent uri text sets
    cases sets with
    | opened method opens =>
      cases silent with
      | unopened _ malformed => exact malformed uri text opens
      | unchanged also | noChanges also => exact absurd (method.symm.trans also) (by decide)
      | other unopening => exact unopening method
    | changed method changes last =>
      cases silent with
      | unopened also => exact absurd (method.symm.trans also) (by decide)
      | unchanged _ malformed => exact malformed uri _ changes
      | noChanges _ none =>
        obtain ⟨-, rfl⟩ := none.unique changes
        cases last
      | other _ unchanging => exact unchanging method
  · intro unset
    by_cases opening : call.method = Methods.didOpen
    · exact .unopened opening fun uri text opens => unset uri text (.opened opening opens)
    by_cases changing : call.method = Methods.didChange
    · by_cases well : ∃ uri texts, Changes call.params uri texts
      · obtain ⟨uri, texts, changes⟩ := well
        cases last : texts.getLast? with
        | none => exact .noChanges changing (List.getLast?_eq_none_iff.mp last ▸ changes)
        | some text => exact absurd (.changed changing changes last) (unset uri text)
      · exact .unchanged changing fun uri texts changes => well ⟨uri, texts, changes⟩
    · exact .other opening changing

/-! ## Handlers that leave the store as it is -/

/-- The handler leaves the core as it is. -/
def Idle {σ : Type} (handler : Handler σ) : Prop :=
  ∀ params core, (handler params core).2 = core

private theorem idle_typed {σ α : Type} {decoder : Decoder α} {answer : α → σ → Outcome × σ}
    (idle : ∀ given core, (answer given core).2 = core) : Idle (Handler.typed decoder answer) := by
  intro params core
  unfold Handler.typed
  split
  · exact idle _ core
  · rfl

private theorem idle_question (answer : String → Position → Value) : Idle (question answer) := by
  refine idle_typed fun given store => ?_
  obtain ⟨uri, position⟩ := given
  dsimp only
  split <;> rfl

/-- Only two methods have handlers that put texts into the store. -/
theorem idle_of_other {entry : String × Handler Store} (registered : entry ∈ handlers.entries)
    (unopening : entry.1 ≠ Methods.didOpen) (unchanging : entry.1 ≠ Methods.didChange) :
    Idle entry.2 := by
  have each : handlers.entries.Forall fun entry =>
      Idle entry.2 ∨ entry.1 = Methods.didOpen ∨ entry.1 = Methods.didChange :=
    ⟨.inl (idle_typed fun _ _ => rfl), .inl (idle_typed fun _ _ => rfl), .inr (.inl rfl),
      .inr (.inr rfl), .inl (idle_question _), .inl (idle_question _), .inl fun _ _ => rfl,
      .inl fun _ _ => rfl⟩
  obtain idle | opening | changing := List.forall_iff_forall_mem.mp each entry registered
  · exact idle
  · exact absurd opening unopening
  · exact absurd changing unchanging

/-! ## What a call does to the store -/

namespace Store

def after (store : Store) (call : Call) : Store :=
  (handlers.answer call.method call.params store).2

variable {store : Store} {call : Call}

private theorem after_opening (method : call.method = Methods.didOpen) :
    store.after call =
      match openDecoder call.params with
      | .ok item => store.put item.uri item.text
      | .error _ => store := by
  have opened : handlers.answer Methods.didOpen call.params store = Handler.typed openDecoder
      (fun item store => (.ok .null, store.put item.uri item.text)) call.params store := rfl
  rw [after, method, opened, Handler.typed]
  cases openDecoder call.params <;> rfl

private theorem after_changing (method : call.method = Methods.didChange) :
    store.after call =
      match changesDecoder call.params with
      | .ok given => (given.2.getLast?.map (store.put given.1)).getD store
      | .error _ => store := by
  have changed : handlers.get? Methods.didChange = some _ := rfl
  rw [after, method, Handlers.answer, changed]
  dsimp only
  rw [Handler.typed]
  cases changesDecoder call.params with
  | error => rfl
  | ok given =>
    dsimp only
    cases given.2.getLast? <;> rfl

theorem after_other (unopening : call.method ≠ Methods.didOpen)
    (unchanging : call.method ≠ Methods.didChange) : store.after call = store := by
  unfold after Handlers.answer
  split
  · rename_i handler found
    obtain ⟨before, behind, split, -⟩ := List.lookup_eq_some_iff.mp found
    have registered : (call.method, handler) ∈ handlers.entries :=
      split ▸ List.mem_append_right before List.mem_cons_self
    exact idle_of_other registered unopening unchanging call.params store
  · rfl

/-- A call that sets a text puts it into the store. -/
theorem after_set (wellFormed : call.params.WellFormed) (sets : Sets call uri text) :
    store.after call = store.put uri text := by
  cases sets with
  | opened method opens =>
    have read : openDecoder call.params = .ok ⟨uri, text⟩ := (openDecoder_iff wellFormed).mpr opens
    rw [after_opening method, read]
  | changed method changes last =>
    rw [after_changing method, (changesDecoder_iff wellFormed).mpr changes]
    dsimp only
    rw [last]
    rfl

/-- A call that sets no text leaves the store as it is: malformed params are not taken in part. -/
theorem after_unset (wellFormed : call.params.WellFormed)
    (unset : ∀ uri text, ¬ Sets call uri text) : store.after call = store := by
  by_cases opening : call.method = Methods.didOpen
  · rw [after_opening opening]
    split
    · rename_i item read
      exact absurd (.opened opening ((openDecoder_iff wellFormed).mp read)) (unset _ _)
    · rfl
  by_cases changing : call.method = Methods.didChange
  · rw [after_changing changing]
    split
    · rename_i given read
      cases last : given.2.getLast? with
      | none => rfl
      | some text =>
        exact absurd (.changed changing ((changesDecoder_iff wellFormed).mp read) last) (unset _ _)
    · rfl
  · exact after_other opening changing

private theorem get?_put (store : Store) (uri text other : String) :
    (store.put uri text).get? other = if other = uri then some text else store.get? other := by
  unfold put get?
  rw [List.lookup_cons]
  by_cases same : other = uri
  · rw [if_pos same, beq_iff_eq.mpr same]
  · rw [if_neg same, beq_false_of_ne same]
    exact lookup_filter_other store.texts same

/-- The text of a document after a call is what the call sets it to, or else what it was. -/
theorem get?_after (wellFormed : call.params.WellFormed) {held? : Option String} :
    (store.after call).get? uri = held? ↔ (∃ text, Sets call uri text ∧ held? = some text) ∨
      (∀ text, ¬ Sets call uri text) ∧ store.get? uri = held? := by
  by_cases setting : ∃ other text, Sets call other text
  · obtain ⟨other, text, sets⟩ := setting
    rw [after_set wellFormed sets, get?_put]
    by_cases same : uri = other
    · subst same
      rw [if_pos rfl]
      constructor
      · exact fun held => .inl ⟨text, sets, held.symm⟩
      · rintro (⟨new, setsAlso, rfl⟩ | ⟨unset, -⟩)
        · rw [(sets.unique setsAlso).2]
        · exact absurd sets (unset text)
    · have unset (new : String) : ¬ Sets call uri new := fun also => same (sets.unique also).1
      rw [if_neg same]
      simp [unset]
  · have unset (other text : String) : ¬ Sets call other text := fun sets =>
      setting ⟨other, text, sets⟩
    rw [after_unset wellFormed unset]
    simp [unset]

end Store

/-! ## The store after any calls -/

/-- The store of a core that has handled calls, the first one first. -/
def storeAfter (calls : List Call) : Store :=
  calls.foldl Store.after {}

variable {calls : List Call} {call : Call}

private theorem neverSet_cons :
    NeverSet (call :: calls) uri ↔ (∀ text, ¬ Sets call uri text) ∧ NeverSet calls uri :=
  List.forall_mem_cons

private theorem lastSet_cons :
    LastSet (call :: calls) uri text ↔
      LastSet calls uri text ∨ Sets call uri text ∧ NeverSet calls uri := by
  constructor
  · rintro ⟨before, setter, behind, split, sets, final⟩
    cases before with
    | nil =>
      obtain ⟨rfl, rfl⟩ := List.cons_eq_cons.mp split
      exact .inr ⟨sets, final⟩
    | cons first before =>
      obtain ⟨-, rfl⟩ := List.cons_eq_cons.mp split
      exact .inl ⟨before, setter, behind, rfl, sets, final⟩
  · rintro (⟨before, setter, behind, rfl, sets, final⟩ | ⟨sets, final⟩)
    · exact ⟨call :: before, setter, behind, rfl, sets, final⟩
    · exact ⟨[], call, calls, rfl, sets, final⟩

private theorem get?_foldl {store : Store} (wellFormed : ∀ call ∈ calls, call.params.WellFormed)
    {held? : Option String} :
    (calls.foldl Store.after store).get? uri = held? ↔
      (∃ text, LastSet calls uri text ∧ held? = some text) ∨
        NeverSet calls uri ∧ store.get? uri = held? := by
  induction calls generalizing store with
  | nil => simp [LastSet, NeverSet]
  | cons call calls ih =>
    obtain ⟨first, others⟩ := List.forall_mem_cons.mp wellFormed
    rw [List.foldl_cons, ih others, Store.get?_after first]
    simp only [neverSet_cons, lastSet_cons]
    grind

/-! ## Questions -/

private theorem question_held {store : Store} (answer : String → Position → Value)
    {position : Position}
    (wellFormed : params.WellFormed) (asks : Asks params uri position)
    (held : store.get? uri = some text) :
    question answer params store = (.ok (answer text position), store) := by
  rw [question, Handler.typed, (questionDecoder_iff wellFormed).mpr asks]
  dsimp only
  rw [held]

private theorem question_missing {store : Store} (answer : String → Position → Value)
    {position : Position}
    (wellFormed : params.WellFormed) (asks : Asks params uri position)
    (missing : store.get? uri = none) :
    question answer params store = (.error (notOpen uri), store) := by
  rw [question, Handler.typed, (questionDecoder_iff wellFormed).mpr asks]
  dsimp only
  rw [missing]

/-- How the core stands to a document after the calls. -/
structure AnswersFromLast (calls : List Call) (uri : String) : Prop where
  /-- the text is settled by the calls, unless none of them set one -/
  settled : NeverSet calls uri ∨
    ∃ text, LastSet calls uri text ∧ ∀ other, LastSet calls uri other → other = text
  /-- questions are answered from the text that the last call to set it gave -/
  answered : ∀ {text params position}, LastSet calls uri text → params.WellFormed →
    Asks params uri position →
    handlers.answer Methods.hover params (storeAfter calls) =
        (.ok (hoverAnswer text position), storeAfter calls) ∧
      handlers.answer Methods.documentHighlight params (storeAfter calls) =
        (.ok (highlightAnswer text position), storeAfter calls)
  /-- questions are refused when no call ever set the text, and the error names the document -/
  refused : ∀ {method params position}, NeverSet calls uri →
    method = Methods.hover ∨ method = Methods.documentHighlight → params.WellFormed →
    Asks params uri position →
    handlers.answer method params (storeAfter calls) =
      (.error {
        code := ResponseError.invalidParamsCode
        message := "invalid params: document not open: " ++ uri
        data? := some (.object [("uri", .string uri)]) }, storeAfter calls)
  /-- a silent call leaves the texts of all documents as they are -/
  silent : ∀ {call}, call.params.WellFormed → Silent call →
    storeAfter (calls ++ [call]) = storeAfter calls
  /-- a call that sets the text leaves the texts of all other documents as they are -/
  aside : ∀ {call text}, call.params.WellFormed → Sets call uri text → ∀ {other}, other ≠ uri →
    (storeAfter (calls ++ [call])).get? other = (storeAfter calls).get? other

private theorem storeAfter_concat (calls : List Call) (call : Call) :
    storeAfter (calls ++ [call]) = (storeAfter calls).after call :=
  List.foldl_concat ..

/-- After any calls a question about a document is answered from the text that the last call to set
it gave, and refused if there was none. -/
theorem answered_from_last_set (wellFormed : ∀ call ∈ calls, call.params.WellFormed)
    (uri : String) : AnswersFromLast calls uri := by
  have held {text : String} (last : LastSet calls uri text) :
      (storeAfter calls).get? uri = some text :=
    (get?_foldl wellFormed).mpr (.inl ⟨text, last, rfl⟩)
  have missing (never : NeverSet calls uri) : (storeAfter calls).get? uri = none :=
    (get?_foldl wellFormed).mpr (.inr ⟨never, rfl⟩)
  constructor
  case settled =>
    have same : (storeAfter calls).get? uri = (storeAfter calls).get? uri := rfl
    obtain ⟨text, last, -⟩ | ⟨never, -⟩ := (get?_foldl wellFormed).mp same
    · refine .inr ⟨text, last, fun other also => ?_⟩
      exact Option.some.inj ((held also).symm.trans (held last))
    · exact .inl never
  case answered =>
    intro text params position last fits asks
    exact ⟨question_held hoverAnswer fits asks (held last),
      question_held highlightAnswer fits asks (held last)⟩
  case refused =>
    rintro method params position never (rfl | rfl) fits asks
    · exact question_missing hoverAnswer fits asks (missing never)
    · exact question_missing highlightAnswer fits asks (missing never)
  case silent =>
    intro call fits silent
    rw [storeAfter_concat, Store.after_unset fits (silent_iff.mp silent)]
  case aside =>
    intro call text fits sets other apart
    rw [storeAfter_concat, Store.after_set fits sets, Store.get?_put, if_neg apart]

/-- A document is opened and changed twice over, then changed with a malformed change, and another
document is opened; objects and arrays are mixed. -/
def mixedCalls : List Call := [
  ⟨Methods.didOpen, .object [("textDocument", .object [
    ("languageId", .string "x"), ("text", .string "alpha beta"), ("uri", .string "u")])]⟩,
  ⟨Methods.didChange, .array [.array [.string "u"],
    .array [.array [.string "gamma"], .object [("text", .string "gamma delta")]]]⟩,
  ⟨Methods.didChange, .array [.array [.string "u"],
    .array [.object [("text", .string "epsilon")], .null]]⟩,
  ⟨Methods.didOpen, .array [.array [.string "v", .string "zeta"]]⟩]

/-- The malformed change and the other document do not count. -/
theorem answered_from_last_set_mixed :
    (∀ call ∈ mixedCalls, call.params.WellFormed) ∧
      handlers.answer Methods.hover (Call.hover "u" 0 7).params (storeAfter mixedCalls) =
        (.ok (hoverAnswer "gamma delta" ⟨0, 7⟩), storeAfter mixedCalls) := by
  have wellFormed : ∀ call ∈ mixedCalls, call.params.WellFormed := by
    have keys : ["languageId", "text", "uri"].Pairwise (· < ·) := by decide
    have one (member : String × Value) : Members.Ordered [member] := List.pairwise_singleton _ _
    have item : Members.Ordered [("languageId", .string "x"), ("text", .string "alpha beta"),
      ("uri", .string "u")] := Members.ordered_of_keys keys
    simp [mixedCalls, Value.WellFormed, Value.ItemsWellFormed, Value.MembersWellFormed, one, item]
  have unread : changesDecoder (.array [.array [.string "u"],
      .array [.object [("text", .string "epsilon")], .null]]) =
        .error (.invalidType .null "struct ContentChange") := rfl
  refine ⟨wellFormed, ((answered_from_last_set wellFormed "u").answered ?_ ?_ ?_).1⟩
  · have changes : Changes (.array [.array [.string "u"],
        .array [.array [.string "gamma"], .object [("text", .string "gamma delta")]]])
        "u" ["gamma", "gamma delta"] :=
      ⟨_, _, .items rfl, .items rfl,
        .cons (.items rfl) (.cons (.members (.cons rfl .nil)) .nil)⟩
    refine ⟨[_], _, [_, _], rfl, .changed rfl changes rfl, ?_⟩
    rw [List.forall_mem_cons, List.forall_mem_singleton]
    constructor
    · refine fun other => silent_iff.mp (.unchanged rfl fun uri texts changes => ?_) "u" other
      have read := (changesDecoder_iff (wellFormed _ (.tail _ (.tail _ (.head _))))).mpr changes
      cases unread.symm.trans read
    · intro other sets
      have elsewhere : Sets ⟨Methods.didOpen, .array [.array [.string "v", .string "zeta"]]⟩
          "v" "zeta" := .opened rfl ⟨_, .items rfl, .items rfl⟩
      exact absurd (elsewhere.unique sets).1 (by decide)
  · exact ⟨Members.ordered_of_keys (by decide),
      ⟨Members.ordered_of_keys (by decide), trivial, trivial, trivial⟩,
      ⟨Members.ordered_of_keys (by decide), trivial, trivial⟩, trivial⟩
  · exact ⟨_, _, _, _, .members (.cons rfl (.cons rfl .nil)), .members (.cons rfl .nil),
      .members (.cons rfl (.cons rfl .nil)), ⟨_, rfl, rfl⟩, ⟨_, rfl, rfl⟩⟩

end Airlock.Document
