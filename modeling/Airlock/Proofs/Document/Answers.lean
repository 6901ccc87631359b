import Airlock.Document.Handlers
import Airlock.Proofs.Codec.Transcoding

/-!
# Answers that can be sent

Whatever the params and the documents are, an answer of the document core has its members in order,
nests only a few containers deep and holds no doubles, and an error of it has no null data. So an
answer is read back as it is, unless its unit is too long.
-/

set_option autoImplicit false

namespace Airlock

namespace Value

variable {room : Nat}

theorem within_ofMembers {members : List (String × Value)}
    (within : ∀ member ∈ members, member.2.Within room) :
    (ofMembers members).Within (room + 1) := by
  have gathers {members : List (String × Value)} {gathered : Members}
      (fits : gathered.Within room) (within : ∀ member ∈ members, member.2.Within room) :
      (members.foldl (fun held member => Members.insert held member.1 member.2) gathered).Within
        room := by
    induction members generalizing gathered with
    | nil => exact fits
    | cons member rest ih =>
      obtain ⟨first, others⟩ := List.forall_mem_cons.mp within
      exact ih (fits.insert member.1 first) others
  exact within_object.mpr (gathers Members.within_nil within)

theorem within_single {key : String} {value : Value} (within : value.Within room) :
    (ofMembers [(key, value)]).Within (room + 1) :=
  within_ofMembers (List.forall_mem_singleton.mpr within)

theorem within_pair {first second : String} {value other : Value} (within : value.Within room)
    (also : other.Within room) : (ofMembers [(first, value), (second, other)]).Within (room + 1) :=
  within_ofMembers (List.forall_mem_cons.mpr ⟨within, List.forall_mem_singleton.mpr also⟩)

private theorem within_ofNat (n : Nat) : (ofNat n).Within room :=
  within_number _

private theorem doublesOfItems_map {α : Type} {item : α → Value} (none : ∀ a, (item a).doubles = [])
    (all : List α) : doublesOfItems (all.map item) = [] := by
  induction all with
  | nil => rfl
  | cons a rest ih => rw [List.map_cons, doublesOfItems, none, ih, List.append_nil]

private theorem doublesOfMembers_eq_nil_iff {members : Members} :
    doublesOfMembers members = [] ↔ ∀ member ∈ members, member.2.doubles = [] := by
  induction members with
  | nil => simp [doublesOfMembers]
  | cons member rest ih =>
    obtain ⟨key, value⟩ := member
    simp only [doublesOfMembers, List.append_eq_nil_iff, List.forall_mem_cons, ih]

private theorem doubles_ofMembers {members : List (String × Value)}
    (none : ∀ member ∈ members, member.2.doubles = []) : (ofMembers members).doubles = [] := by
  have gathers {members : List (String × Value)} {gathered : Members}
      (before : ∀ member ∈ gathered, member.2.doubles = [])
      (none : ∀ member ∈ members, member.2.doubles = []) :
      ∀ member ∈ members.foldl (fun held member => Members.insert held member.1 member.2) gathered,
        member.2.doubles = [] := by
    induction members generalizing gathered with
    | nil => exact before
    | cons member rest ih =>
      obtain ⟨first, others⟩ := List.forall_mem_cons.mp none
      refine ih (fun other inside => ?_) others
      obtain rfl | held := Members.mem_insert inside
      · exact first
      · exact before other held
  exact doublesOfMembers_eq_nil_iff.mpr (gathers (List.forall_mem_nil _) none)

private theorem doubles_single {key : String} {value : Value} (none : value.doubles = []) :
    (ofMembers [(key, value)]).doubles = [] :=
  doubles_ofMembers (List.forall_mem_singleton.mpr none)

private theorem doubles_pair {first second : String} {value other : Value}
    (none : value.doubles = [])
    (also : other.doubles = []) : (ofMembers [(first, value), (second, other)]).doubles = [] :=
  doubles_ofMembers (List.forall_mem_cons.mpr ⟨none, List.forall_mem_singleton.mpr also⟩)

end Value

/-- A response with the outcome is settled, whichever request it is for. -/
def Outcome.Settled (room : Nat) (outcome : Outcome) : Prop :=
  ∀ id, (Message.response id outcome).Settled room

namespace Outcome

variable {room : Nat}

private theorem settled_ok {value : Value} (within : value.Within room) :
    Settled (room + 1) (.ok value) :=
  fun id => Message.settled_result id within

private theorem settled_plain {error : ResponseError} (plain : error.data? = none) :
    Settled (room + 2) (.error error) := by
  obtain ⟨code, message, data?⟩ := error
  obtain rfl : data? = none := plain
  have none (data : Value) : data ∉ (⟨code, message, none⟩ : ResponseError).data? := by
    intro present
    cases present
  exact fun id => Message.settled_error id rfl (fun data present => absurd present (none data))
    (ResponseError.toValue_within fun data present => absurd present (none data))

private theorem settled_withData {error : ResponseError} {data : Value} (within : data.Within room)
    (present : data ≠ .null) : Settled (room + 2) (.error (error.withData data)) := by
  have only (value : Value) (held : value ∈ (error.withData data).data?) : value.Within room := by
    cases held
    exact within
  have normalized : (error.withData data).normalized = error.withData data := by
    cases data with
    | null => exact absurd rfl present
    | bool | number | string | array | object => rfl
  exact fun id => Message.settled_error id normalized
    (fun value held => (only value held).wellFormed) (ResponseError.toValue_within only)

end Outcome

/-- The doubles in a response with the outcome. -/
def Outcome.doubles : Outcome → List Double
  | .ok result => result.doubles
  | .error error => error.toValue.doubles

theorem Message.doubles_response (id : Id) (outcome : Outcome) :
    (Message.response id outcome).toValue.doubles = outcome.doubles := by
  have number : id.toValue.doubles = [] := by
    cases id <;> rfl
  rw [toValue_eq]
  cases outcome with
  | ok result =>
    simp only [orderedMembers, members, outcomeMember, Value.doubles, Value.doublesOfMembers,
      number, List.nil_append, List.append_nil, Outcome.doubles]
  | error error =>
    simp only [orderedMembers, Value.doubles, Value.doublesOfMembers, number, List.append_nil,
      Outcome.doubles]

/-- A response with the outcome is read back as it is, for it is settled and holds no doubles. -/
structure Outcome.Exact (room : Nat) (outcome : Outcome) : Prop where
  settled : outcome.Settled room
  integral : outcome.doubles = []

private theorem ResponseError.doubles_plain {error : ResponseError} (plain : error.data? = none) :
    error.toValue.doubles = [] := by
  obtain ⟨code, message, data?⟩ := error
  obtain rfl : data? = none := plain
  rw [toValue_eq]
  rfl

namespace Outcome.Exact

variable {room : Nat}

private theorem ok {value : Value} (within : value.Within room) (integral : value.doubles = []) :
    Exact (room + 1) (.ok value) :=
  ⟨settled_ok within, integral⟩

private theorem plain {error : ResponseError} (plain : error.data? = none) :
    Exact (room + 2) (.error error) :=
  ⟨settled_plain plain, ResponseError.doubles_plain plain⟩

end Outcome.Exact

/-! ## Handlers -/

variable {σ : Type} {holds : Outcome → Prop}

/-- Every outcome of the handler has the property. -/
def Handler.Yields (holds : Outcome → Prop) (handler : Handler σ) : Prop :=
  ∀ params core, holds (handler params core).1

private theorem Handler.yields_typed {α : Type} {decoder : Json.Decoder α}
    {answer : α → σ → Outcome × σ}
    (plain : ∀ {error : ResponseError}, error.data? = none → holds (.error error))
    (yields : ∀ given core, holds (answer given core).1) :
    (Handler.typed decoder answer).Yields holds := by
  intro params core
  unfold typed
  split
  · exact yields _ core
  · exact plain rfl

namespace Handlers

/-- Every outcome of every method has the property. -/
def Yield (holds : Outcome → Prop) (handlers : Handlers σ) : Prop :=
  ∀ entry ∈ handlers.entries, entry.2.Yields holds

private theorem yield_empty : Yield holds (empty : Handlers σ) :=
  List.forall_mem_nil _

private theorem Yield.insert {handlers : Handlers σ} (yield : handlers.Yield holds)
    (method : String)
    {handler : Handler σ} (yields : handler.Yields holds) :
    (handlers.insert method handler).Yield holds := by
  intro entry member
  obtain held | added := List.mem_append.mp member
  · exact yield entry (List.mem_filter.mp held).1
  · obtain rfl := List.mem_singleton.mp added
    exact yields

/-- A method without a handler is answered too. -/
theorem Yield.answer {handlers : Handlers σ} (yield : handlers.Yield holds)
    (plain : ∀ {error : ResponseError}, error.data? = none → holds (.error error))
    (method : String) (params : Value) (core : σ) :
    holds (handlers.answer method params core).1 := by
  unfold Handlers.answer
  split
  next handler found =>
    obtain ⟨_, _, split, -⟩ := List.lookup_eq_some_iff.mp found
    exact yield (method, handler) (split ▸ List.mem_append_right _ List.mem_cons_self) params core
  next => exact plain rfl

end Handlers

/-! ## The document core -/

namespace Document

private theorem positionValue_within (line character : Nat) :
    (positionValue line character).Within 1 :=
  Value.within_pair (Value.within_ofNat line) (Value.within_ofNat character)

private theorem rangeValue_within (line start stop : Nat) : (rangeValue line start stop).Within 2 :=
  Value.within_pair (positionValue_within line start) (positionValue_within line stop)

private theorem capabilities_within : capabilities.Within 4 := by
  have none : (Value.array []).Within 1 := Value.within_array.mpr (List.forall_mem_nil _)
  have legend : (Value.ofMembers
      [("tokenTypes", .array []), ("tokenModifiers", .array [])]).Within 2 :=
    Value.within_pair none none
  refine Value.within_ofMembers ?_
  simp only [List.forall_mem_cons]
  exact ⟨Value.within_ofNat 1, Value.within_bool true, Value.within_bool true,
    Value.within_bool true, Value.within_pair legend (Value.within_bool true),
    List.forall_mem_nil _⟩

private theorem introduction_within : introduction.Within 5 := by
  have server : (Value.ofMembers [("name", .string "sandlink-echo"),
      ("version", .string version)]).Within 1 :=
    Value.within_pair (Value.within_string _) (Value.within_string _)
  exact Value.within_pair capabilities_within (server.mono (by decide))

private theorem hoverAnswer_within (text : String) (position : Position) :
    (hoverAnswer text position).Within 3 := by
  unfold hoverAnswer
  split
  · exact Value.within_null
  next word _ =>
    have contents : (Value.ofMembers [("kind", .string "plaintext"),
        ("value", .string (String.ofList word.text))]).Within 2 :=
      Value.within_pair (Value.within_string _) (Value.within_string _)
    exact Value.within_pair contents (rangeValue_within _ _ _)

private theorem highlightAnswer_within (text : String) (position : Position) :
    (highlightAnswer text position).Within 4 := by
  unfold highlightAnswer
  split
  · exact Value.within_array.mpr (List.forall_mem_nil _)
  next word =>
    refine Value.within_array.mpr (List.forall_mem_map.mpr fun span _ => ?_)
    exact Value.within_pair (rangeValue_within _ _ _) (Value.within_ofNat 1)

private theorem doubles_rangeValue (line start stop : Nat) :
    (rangeValue line start stop).doubles = [] :=
  Value.doubles_pair (Value.doubles_pair rfl rfl) (Value.doubles_pair rfl rfl)

private theorem doubles_hoverAnswer (text : String) (position : Position) :
    (hoverAnswer text position).doubles = [] := by
  unfold hoverAnswer
  split
  · rfl
  · exact Value.doubles_pair (Value.doubles_pair rfl rfl) (doubles_rangeValue _ _ _)

private theorem doubles_highlightAnswer (text : String) (position : Position) :
    (highlightAnswer text position).doubles = [] := by
  unfold highlightAnswer
  split
  · rfl
  · refine Value.doublesOfItems_map (fun span => ?_) _
    exact Value.doubles_pair (doubles_rangeValue _ _ _) rfl

private theorem doubles_introduction : introduction.doubles = [] := by
  have legend : (Value.ofMembers
      [("tokenTypes", .array []), ("tokenModifiers", .array [])]).doubles = [] :=
    Value.doubles_pair rfl rfl
  have provided : capabilities.doubles = [] := by
    refine Value.doubles_ofMembers ?_
    simp only [List.forall_mem_cons]
    exact ⟨rfl, rfl, rfl, rfl, Value.doubles_pair legend rfl, List.forall_mem_nil _⟩
  exact Value.doubles_pair provided (Value.doubles_pair rfl rfl)

private theorem exact_notOpen (uri : String) : Outcome.Exact 6 (.error (notOpen uri)) := by
  have data : (Value.ofMembers [("uri", .string uri)]).Within 4 :=
    Value.within_single (Value.within_string uri)
  refine ⟨Outcome.settled_withData data nofun, ?_⟩
  have none : (Value.ofMembers [("uri", .string uri)]).doubles = [] := Value.doubles_single rfl
  show (notOpen uri).toValue.doubles = []
  rw [ResponseError.toValue_eq]
  simpa [notOpen, ResponseError.withData, Value.doubles, Value.doublesOfMembers] using none

private theorem yields_question {answer : String → Position → Value}
    (within : ∀ text position, (answer text position).Within 5)
    (integral : ∀ text position, (answer text position).doubles = []) :
    (question answer).Yields (Outcome.Exact 6) := by
  refine Handler.yields_typed .plain ?_
  rintro ⟨uri, position⟩ store
  dsimp only
  split
  · exact .ok (within _ position) (integral _ position)
  · exact exact_notOpen uri

private theorem yield_handlers : handlers.Yield (Outcome.Exact 6) := by
  have null : Outcome.Exact 6 (.ok .null) := .ok Value.within_null rfl
  have none {room : Nat} : (Value.array []).Within (room + 1) :=
    Value.within_array.mpr (List.forall_mem_nil _)
  have hovers : (question hoverAnswer).Yields (Outcome.Exact 6) :=
    yields_question (fun text position => (hoverAnswer_within text position).mono (by decide))
      doubles_hoverAnswer
  have highlights : (question highlightAnswer).Yields (Outcome.Exact 6) :=
    yields_question (fun text position => (highlightAnswer_within text position).mono (by decide))
      doubles_highlightAnswer
  apply Handlers.yield_empty.insert _ (Handler.yields_typed .plain fun _ _ => ?introduced)
    |>.insert _ (Handler.yields_typed .plain fun _ _ => null)
    |>.insert _ (Handler.yields_typed .plain fun _ _ => null)
    |>.insert _ (Handler.yields_typed .plain ?changed)
    |>.insert _ hovers
    |>.insert _ highlights
    |>.insert _ (fun _ _ => .ok none rfl)
    |>.insert _ (fun _ _ => .ok (Value.within_single none) (Value.doubles_single rfl))
  case introduced => exact .ok introduction_within doubles_introduction
  case changed =>
    rintro ⟨uri, changes⟩ store
    dsimp only
    split <;> exact null

/-- Whatever is asked of the core in whatever state, the answer can be read back as it is. -/
theorem answer_exact (method : String) (params : Value) (store : Store) :
    Outcome.Exact 6 (handlers.answer method params store).1 :=
  yield_handlers.answer .plain method params store

end Document

end Airlock
