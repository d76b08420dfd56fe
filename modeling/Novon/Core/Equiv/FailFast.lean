import Novon.Core.Equiv.Decorators

/-!
# Fail-fast decoration

A template is read by two grammars: decoration looks for `{word}` with a regular expression, and a
call formats the template.  `reaches_request_iff` says exactly when they agree on a call of an
accepted method: when the template is `Sound` for its arguments.  A template that is not is
accepted all the same (`not_fail_fast`).

The wrapper's own pops fail only for a placeholder that occurs twice (`formattedPath_eq_ok_iff`);
formatting fails as `Format.exists_formatMap_iff` says.  What is left is the body argument's own
`model_dump` (`BodyDumps`).
-/

namespace Novon.Decorators

open Format (Field Token tokens replacementFields)

/-- The literal text of a template, cut at its fields. -/
def literalRuns : List Char → List Token → List (List Char)
  | run, [] => [run]
  | run, .lit c :: ts => literalRuns (run ++ [c]) ts
  | run, _ :: ts => run :: literalRuns [] ts

variable (python : Python)

/-- The placeholders that formatting leaves as they are, between doubled braces. -/
def keptPlaceholders (template : List Char) : List String :=
  (literalRuns [] (tokens template)).flatMap (placeholders python)

/-- The path is the template with its fields replaced, and no placeholder is left in it. -/
def Replaces (template path : String) : Prop :=
  keptPlaceholders python template.toList = [] ∧
    ∃ text : Field → String,
      path = String.join ((tokens template.toList).map (Format.tokenText text))

/-- A template that a call with the given arguments can format. -/
structure Sound (template : String) (arguments : Dict String Value) : Prop where
  nodup_placeholders : (placeholders python template.toList).Nodup
  wellFormed : Format.WellFormed template.toList
  /-- Every replacement field is named after a placeholder. -/
  named : ∀ f ∈ replacementFields template.toList,
    ∃ key ∈ placeholders python template.toList, f.key? python.toLib = some key
  /-- A field with an attribute, an index, a conversion or a specification can apply it. -/
  rendered : ∀ f ∈ replacementFields template.toList, ¬f.IsPlain →
    f.Renders python.toLib (pathVars arguments (placeholders python template.toList))
  replaced : keptPlaceholders python template.toList = []

variable {python} {classes : Classes} {method path : String} {func : Func} {spec : EndpointSpec}
  {call : Call} {arguments : Dict String Value}

/-- A field names a value of the formatting's mapping if and only if it is named after a
placeholder. -/
theorem names_iff {names : List String} (hnodup : names.Nodup)
    (h : ∀ name ∈ names, (pathText arguments name).isSome) (f : Field) :
    f.Names python.toLib (pathVars arguments names) ↔
      ∃ key ∈ names, f.key? python.toLib = some key := by
  have hcontains : ∀ key, (pathVars arguments names).contains key = true ↔ key ∈ names := by
    intro key
    rw [Dict.contains, get?_pathVars hnodup h]
    by_cases hkey : key ∈ names
    · simpa [hkey] using h key hkey
    · simp [hkey]
  constructor
  · rintro ⟨key, hkey, hmem⟩
    exact ⟨key, (hcontains key).mp hmem, hkey⟩
  · rintro ⟨key, hmem, hkey⟩
    exact ⟨key, hkey, (hcontains key).mpr hmem⟩

/-- **When a call of an accepted method reaches `self.request`** with every placeholder
replaced. -/
theorem reaches_request_iff (hspec : buildSpec python classes method path func = .ok spec)
    (hbinds : Binds python func call arguments) (hvalid : PathArgumentsValid spec arguments) :
    (∃ out, wrapper python func spec call = .ok out ∧ Replaces python path out.path) ↔
      Sound python path arguments ∧ BodyDumps spec arguments := by
  have hclass := classified_of_buildSpec python classes hspec
  have hpresent := isSome_pathText hclass hbinds hvalid
  obtain ⟨hints, returns, -, -, rfl⟩ := (buildSpec_eq_ok_iff python classes).mp hspec
  constructor
  · rintro ⟨out, hok, hkept, -⟩
    obtain ⟨arguments', hbinds', formatted, json, hformatted, hjson, -⟩ :=
      (wrapper_eq_ok_iff hclass).mp hok
    obtain rfl := hbinds.unique hbinds'
    obtain ⟨hnodup, -, hformat⟩ := (formattedPath_eq_ok_iff hclass).mp hformatted
    obtain ⟨hwell, hfields⟩ := (Format.exists_formatMap_iff python.toLib _ _).mp ⟨_, hformat⟩
    refine ⟨⟨hnodup, hwell, ?_, fun f hf => (hfields f hf).2, hkept⟩, json, hjson⟩
    intro f hf
    exact (names_iff hnodup hpresent f).mp (hfields f hf).1
  · rintro ⟨⟨hnodup, hwell, hnamed, hrendered, hkept⟩, json, hjson⟩
    have hformats : ∃ s, Format.formatMap python.toLib
        (pathVars arguments (placeholders python path.toList)) path = .ok s := by
      rw [Format.exists_formatMap_iff]
      refine ⟨hwell, fun f hf => ⟨?_, hrendered f hf⟩⟩
      exact (names_iff hnodup hpresent f).mpr (hnamed f hf)
    obtain ⟨formatted, hformat⟩ := hformats
    have hformatted := (formattedPath_eq_ok_iff hclass).mpr ⟨hnodup, hpresent, hformat⟩
    refine ⟨_, (wrapper_eq_ok_iff hclass).mpr
      ⟨arguments, hbinds, formatted, json, hformatted, hjson, rfl⟩, hkept, ?_⟩
    exact Format.exists_text_of_formatMap python.toLib hformat

/-! ### A template that fails only when it is called -/

/-- `async def get_item(self, item_id: str) -> Item`. -/
def getItem : Func where
  qualname := "ItemClient.get_item"
  parameters := [⟨"self", .positionalOrKeyword, none⟩, ⟨"item_id", .positionalOrKeyword, none⟩]
  nodup_names := by decide
  hints := .ok (.ofList [("item_id", .cls "str"), ("return", .cls "Item")])

/-- `client.get_item(itemId)`. -/
def getItemCall (itemId : String) : Call where
  receiver := .object (.ok "<ItemClient>") none
  args := [.object (.ok itemId) none]
  kwargs := .empty

def getItemArguments (itemId : String) : Dict String Value :=
  .ofList [("self", .object (.ok "<ItemClient>") none), ("item_id", .object (.ok itemId) none)]

theorem binds_getItemCall (itemId : String) :
    Binds Python.sample getItem (getItemCall itemId) (getItemArguments itemId) := ⟨rfl, rfl⟩

/-- The specification of `getItem` under a template with the given placeholders. -/
def getItemSpec (template : String) (pathParams queryParams : List String) : EndpointSpec where
  method := "GET"
  pathTemplate := template
  pathParams
  bodyParam := none
  queryParams
  responseType := .cls "Item"
  partialUpdate := false

/-- The request of a `getItem` call for a path. -/
def getItemRequest (path : String) : RequestCall where
  method := "GET"
  path
  ctx := .none
  json := none
  params := none
  responseModel := some (.cls "Item")
  expectsNone := false

/-- The argument of a `getItem` call is valid in any path. -/
theorem pathArgumentsValid_getItem (template : String) (queryParams : List String)
    (itemId : String) :
    PathArgumentsValid (getItemSpec template ["item_id"] queryParams)
      (getItemArguments itemId) := by
  intro name hname value hvalue
  obtain rfl := List.mem_singleton.mp hname
  obtain rfl : Value.object (.ok itemId) none = value := Option.some.inj hvalue
  exact ⟨rfl, itemId, rfl⟩

theorem reaches_request_iff_sample :
    Sound Python.sample "/items/{item_id}" (getItemArguments "5") := by
  have haccepted : buildSpec Python.sample Classes.sample "GET" "/items/{item_id}" getItem =
      .ok (getItemSpec "/items/{item_id}" ["item_id"] []) := rfl
  have hvalid := pathArgumentsValid_getItem "/items/{item_id}" [] "5"
  have hiff := reaches_request_iff haccepted (binds_getItemCall "5") hvalid
  refine (hiff.mp ⟨_, rfl, rfl, ?_⟩).1
  exact ⟨fun _ => "5", rfl⟩

/-- `@get("/items/{item-id}")` is accepted, and every call of it raises `KeyError`. -/
theorem not_fail_fast :
    ¬∀ (method path : String) (func : Func) (spec : EndpointSpec) (call : Call)
        (arguments : Dict String Value),
      buildSpec Python.sample Classes.sample method path func = .ok spec →
        Binds Python.sample func call arguments → PathArgumentsValid spec arguments →
        (∀ name, spec.bodyParam = some name →
          ∃ text fields unserialisable,
            arguments.get? name = some (.model text fields unserialisable)) →
        BodyDumps spec arguments →
        ∃ out, wrapper Python.sample func spec call = .ok out ∧
          Replaces Python.sample path out.path := by
  intro h
  have haccepted : buildSpec Python.sample Classes.sample "GET" "/items/{item-id}" getItem =
      .ok (getItemSpec "/items/{item-id}" [] ["item_id"]) := rfl
  have hraises : wrapper Python.sample getItem (getItemSpec "/items/{item-id}" [] ["item_id"])
      (getItemCall "5") = .error (.format (.keyError "item-id")) := rfl
  have hvalid : PathArgumentsValid (getItemSpec "/items/{item-id}" [] ["item_id"])
      (getItemArguments "5") := by
    intro name hname
    cases hname
  obtain ⟨out, hok, -⟩ := h _ _ _ _ _ _ haccepted (binds_getItemCall "5") hvalid
    (fun name hname => by cases hname) (bodyDumps_of_bodyParam_eq_none rfl)
  rw [hraises] at hok
  cases hok

end Novon.Decorators
