import Novon.TestUtils.MockRouter

/-!
# Which requests a mock route answers

A route answers what is the same request on the wire, unless the two URLs spell one text as
different paths (`answers_iff`).  Keys hold the decoded path, so that a path value counts as the
same whether it is percent-encoded or left as it is (`spellings_of_unquoted`).
-/

namespace Novon.TestUtils

variable {R E D W : Type}

/-- Two methods and URLs that are the same on the wire, whatever their query strings: methods and
hosts are equal ignoring case, ports as connected to, and paths as sent. -/
structure WireSame (lib : UrlLib) (method : String) (url : Url) (method' : String) (url' : Url) :
    Prop where
  method : BaseServiceClient.upper method = BaseServiceClient.upper method'
  scheme : url.scheme = url'.scheme
  host : lower url.host = lower url'.host
  port : url.effectivePort lib = url'.effectivePort lib
  path : url.rawPath = url'.rawPath

/-- Two methods and URLs that differ in the spelling of the path alone. -/
structure Spellings (lib : UrlLib) (method : String) (url : Url) (method' : String) (url' : Url) :
    Prop where
  method : BaseServiceClient.upper method = BaseServiceClient.upper method'
  scheme : url.scheme = url'.scheme
  host : lower url.host = lower url'.host
  port : url.effectivePort lib = url'.effectivePort lib
  rawPath : url.rawPath ≠ url'.rawPath
  text : Url.decodedPath lib url.rawPath = Url.decodedPath lib url'.rawPath

/-! ### Keys -/

variable {lib : UrlLib} {method method' : String} {url url' : Url}

/-- A key identifies what is the same on the wire, and the spellings of one path. -/
theorem routeKey_eq_iff (h : url.Normalised lib) (h' : url'.Normalised lib) :
    routeKey method url = routeKey method' url' ↔
      WireSame lib method url method' url' ∨ Spellings lib method url method' url' := by
  have hhost : url.host = url'.host ↔ lower url.host = lower url'.host := by
    rw [h.host, h'.host]
  simp only [routeKey, Prod.mk.injEq]
  constructor
  · rintro ⟨hmethod, hscheme, heq, hport, hpath⟩
    have hport' := (h.port_eq_iff h' hscheme).mp hport
    rw [h.path, h'.path] at hpath
    by_cases hraw : url.rawPath = url'.rawPath
    · exact .inl ⟨hmethod, hscheme, hhost.mp heq, hport', hraw⟩
    · exact .inr ⟨hmethod, hscheme, hhost.mp heq, hport', hraw, hpath⟩
  · rintro (hsame | hspell)
    · refine ⟨hsame.method, hsame.scheme, hhost.mpr hsame.host,
        (h.port_eq_iff h' hsame.scheme).mpr hsame.port, ?_⟩
      rw [h.path, h'.path, hsame.path]
    · refine ⟨hspell.method, hspell.scheme, hhost.mpr hspell.host,
        (h.port_eq_iff h' hspell.scheme).mpr hspell.port, ?_⟩
      rw [h.path, h'.path, hspell.text]

/-- Nothing is both. -/
theorem Spellings.not_wireSame (h : Spellings lib method url method' url') :
    ¬ WireSame lib method url method' url' := fun hsame => h.rawPath hsame.path

/-- **A value that is left unquoted** is another spelling of the path with the value quoted, if the
URL leaves its characters as they are. -/
theorem spellings_of_unquoted (hscheme : url.scheme = url'.scheme) (hhost : url.host = url'.host)
    (hport : url.port = url'.port) {p value : String}
    (hquoted : url.rawPath = p ++ Percent.quote value) (hliteral : url'.rawPath = p ++ value)
    (hp : '%' ∉ p.toList) (hvalue : '%' ∉ value.toList) {c : Char} (hc : c ∈ value.toList)
    (hreserved : Percent.isUnreserved c = false) :
    Spellings lib method url method url' := by
  refine ⟨rfl, hscheme, congrArg lower hhost, ?_, ?_, ?_⟩
  · rw [Url.effectivePort, hport, hscheme, ← Url.effectivePort]
  · rw [hquoted, hliteral]
    intro heq
    have hne : c ≠ '%' := fun h => hvalue (h ▸ hc)
    apply Percent.quote_ne hreserved hne hc
    have hlist := congrArg String.toList heq
    rw [String.toList_append, String.toList_append] at hlist
    exact String.toList_injective (List.append_cancel_left hlist)
  · have hplain : '%' ∉ (p ++ value).toList := by
      rw [String.toList_append, List.mem_append, not_or]
      exact ⟨hp, hvalue⟩
    rw [hquoted, hliteral, Url.decodedPath_quote hp, Url.decodedPath_of_not_mem hplain]

namespace MockRouter

/-- The route with this number answers: what the router does is what the route does. -/
def Answers (lib : UrlLib) (s : MockRouter R E D W) (ref : ℕ) (request : Request D) : Prop :=
  s.handle lib request = s.handOver lib ref request

/-- The route that answers is the one that is found. -/
theorem answers_iff_find (s : MockRouter R E D W) (ref : ℕ) (request : Request D) :
    Answers lib s ref request ↔ s.find request = some ref := by
  constructor
  · intro h
    -- the calls of the route tell whether it has handled the request
    have hcalls : ((s.handle lib request).2.objects ref).calls.length =
        (s.objects ref).calls.length + 1 := by
      rw [h, handOver_self, MockRoute.handle_calls, List.length_append, List.length_singleton]
    cases hfind : s.find request with
    | none =>
      rw [handle_of_find_none lib s hfind] at hcalls
      exact absurd hcalls (Nat.ne_of_lt (Nat.lt_succ_self _))
    | some ref' =>
      rw [handle_of_find lib s hfind] at hcalls
      by_cases hsame : ref = ref'
      · rw [hsame]
      · rw [handOver_of_ne lib s hsame] at hcalls
        exact absurd hcalls (Nat.ne_of_lt (Nat.lt_succ_self _))
  · exact fun h => handle_of_find lib s h

/-- **A route answers what is the same on the wire** exactly when the request is no other spelling
of the path that the route is registered for. -/
theorem answers_iff (lib : UrlLib) (s : MockRouter R E D W) (method : String) (url : Url) (ref : ℕ)
    (request : Request D) (hurl : url.Normalised lib) (hrequest : request.url.Normalised lib)
    (h : s.routes.get? (routeKey method url) = some ref) :
    (Answers lib s ref request ↔ WireSame lib method url request.method request.url) ↔
      ¬ Spellings lib method url request.method request.url := by
  have hkey : Answers lib s ref request ↔
      WireSame lib method url request.method request.url ∨
        Spellings lib method url request.method request.url := by
    rw [answers_iff_find, ← routeKey_eq_iff hurl hrequest]
    constructor
    · exact fun hfind => s.registered_injective _ _ ref h hfind
    · intro heq
      rw [find, Request.key, ← heq, h]
  rw [hkey]
  constructor
  · exact fun hiff hspell => hspell.not_wireSame (hiff.mp (.inr hspell))
  · intro hnot
    exact or_iff_left hnot

/-- A route is registered under the key of its URL. -/
theorem registered_route (method : String) (url : Url) (env : Env R E W) :
    ((new env : MockRouter R E D W).route method url).2.routes.get? (routeKey method url) =
      some 0 := by
  rw [route_of_unregistered (new env) rfl, register_get?, if_pos rfl]
  rfl

/-! ### An encoded slash -/

/-- A URL of `https://uc.test` with the given path. -/
def itemUrl (path rawPath : String) (query : Option String) : Url :=
  ⟨"https", "uc.test", none, path, rawPath, query⟩

/-- The path `/items/a%2Fb`, and the one that it decodes to. -/
theorem decodedPath_items :
    Url.decodedPath .sample "/items/a%2Fb" = "/items/a/b" ∧
      Url.decodedPath .sample "/items/a/b" = "/items/a/b" := by
  have hquote : "/items/" ++ Percent.quote "a/b" = "/items/a%2Fb" := by decide
  have hjoin : "/items/" ++ "a/b" = "/items/a/b" := by decide
  rw [← hquote, Url.decodedPath_quote (by decide), hjoin]
  exact ⟨rfl, Url.decodedPath_of_not_mem (by decide)⟩

theorem normalised_itemUrl {path rawPath : String} (h : Url.decodedPath .sample rawPath = path)
    (query : Option String) : (itemUrl path rawPath query).Normalised .sample :=
  ⟨show lower "uc.test" = "uc.test" by decide, fun _ _ => by simp [itemUrl], h.symm⟩

/-- The route for an encoded slash answers the request with an encoded slash and a query. -/
theorem answers_iff_query :
    let url := itemUrl "/items/a/b" "/items/a%2Fb" none
    let request : Request Unit := ⟨"get", itemUrl "/items/a/b" "/items/a%2Fb" (some "full=1"), ()⟩
    let s := ((new .sample : MockRouter ℕ String Unit Unit).route "GET" url).2
    Answers .sample s 0 request := by
  intro url request s
  have hiff := answers_iff .sample s "GET" url 0 request (normalised_itemUrl decodedPath_items.1 _)
    (normalised_itemUrl decodedPath_items.1 _) (registered_route "GET" url .sample)
  refine (hiff.mpr ?_).mpr ⟨by decide, rfl, rfl, rfl, rfl⟩
  exact fun hspell => hspell.rawPath rfl

/-- The route for an encoded slash answers the request with a literal one. -/
theorem answers_unquoted :
    let url := itemUrl "/items/a/b" "/items/a%2Fb" none
    let request : Request Unit := ⟨"GET", itemUrl "/items/a/b" "/items/a/b" none, ()⟩
    let s := ((new .sample : MockRouter ℕ String Unit Unit).route "GET" url).2
    (url.Normalised .sample ∧ request.url.Normalised .sample) ∧ Answers .sample s 0 request ∧
      ¬ WireSame .sample "GET" url request.method request.url := by
  intro url request s
  have hurl : url.Normalised .sample := normalised_itemUrl decodedPath_items.1 none
  have hrequest : request.url.Normalised .sample := normalised_itemUrl decodedPath_items.2 none
  have hquoted : url.rawPath = "/items/" ++ Percent.quote "a/b" := by decide
  have hliteral : request.url.rawPath = "/items/" ++ "a/b" := by decide
  have hslash : '/' ∈ "a/b".toList := by decide
  have hspell : Spellings .sample "GET" url request.method request.url :=
    spellings_of_unquoted rfl rfl rfl hquoted hliteral (by decide) (by decide) hslash (by decide)
  refine ⟨⟨hurl, hrequest⟩, ?_, hspell.not_wireSame⟩
  rw [answers_iff_find, find, Request.key, ← (routeKey_eq_iff hurl hrequest).mpr (.inr hspell)]
  exact registered_route "GET" url .sample

end MockRouter

end Novon.TestUtils
