import Blokwork.Http.Message
import Blokwork.Migration.Environment

/-!
# A client of the content API

The entries of a remote space. A listing has pages of one hundred entries without their content,
and ends with the first page that is not full; each entry is then fetched by itself, in the
order of the listing. An entry is replaced whole.
-/

namespace Blokwork.Http

/-- A client for one space. -/
structure Client (m : Type → Type) where
  baseUrl : String
  spaceId : String
  token : String
  transport : Transport m
  /-- The most pages of a listing that are asked for. -/
  pageLimit : Nat

/-- The entries on a full page. -/
def pageSize : Nat := 100

/-- The page of a listing. -/
def listingRecord : TextRecord (List Json) :=
  [⟨"stories", false, fun room cs _ => TextField.values room cs⟩]

/-- An entry in its envelope. -/
def envelopeRecord : TextRecord (Option Json) :=
  [⟨"story", true, fun room cs _ => (TextField.value room cs).map fun (j, rest) => (some j, rest)⟩]

/-- The entries on a page of a listing. -/
def Response.listing? (r : Response) : Option (List Json) :=
  (parseBytes (listingRecord.parse []) r.body).toOption

/-- The entry in an envelope. -/
def Response.story? (r : Response) : Option Entry :=
  ((parseBytes (envelopeRecord.parse none) r.body).toOption.bind id).map Entry.mk

/-- A text without slashes at its end. -/
def dropSlashes (s : String) : String :=
  String.ofList (s.toList.reverse.dropWhile (· = '/')).reverse

/-- A failure of the network within a context. -/
def networkFailure (context : String) : Failure := { contexts := [context], cause := .network }

namespace Client

/-- The number of a page is a word of 64 bits. -/
def maxPages : Nat := 0x10000000000000000

variable {m : Type → Type}

/-- A client for a space at an address, which may end in slashes. -/
def ofCredentials (credentials : Credentials) (token : String) (transport : Transport m) :
    Client m where
  baseUrl := dropSlashes credentials.baseUrl
  spaceId := credentials.spaceId
  token := token
  transport := transport
  pageLimit := maxPages

variable (client : Client m)

/-- The space that the client talks to. -/
def credentials : Credentials := ⟨client.spaceId, client.baseUrl⟩

/-- The address of all entries. -/
def storiesUrl : String := client.baseUrl ++ "/v1/spaces/" ++ client.spaceId ++ "/stories"

/-- The request for a page of the listing of a component. -/
def listingRequest (component : String) (page : Nat) : Request where
  method := .get
  url := client.storiesUrl
  query := [("contain_component", component), ("page", page.repr), ("per_page", pageSize.repr)]
  authorization := client.token

/-- The request for an entry. -/
def storyRequest (id : String) : Request where
  method := .get
  url := client.storiesUrl ++ "/" ++ id
  authorization := client.token

/-- The request that replaces an entry. -/
def updateRequest (id : String) (entry : Entry) : Request where
  method := .put
  url := client.storiesUrl ++ "/" ++ id
  authorization := client.token
  body := some (.obj [("story", entry.doc), ("force_update", .str "1")])

/-- The identifiers of listed entries, each of which must have one. -/
def idsOf (stories : List Json) : Except Failure (List String) :=
  stories.mapM fun j =>
    match Entry.id? ⟨j⟩ with
    | some id => .ok id
    | none => .error (.ofMessage "story listing returned an entry without id")

variable [Monad m]

/-- The identifiers on a page of a listing. -/
def pageIds (component : String) (page : Nat) : m (Except Failure (List String)) := do
  match ← client.transport (client.listingRequest component page) with
  | none => return .error (networkFailure ("listing stories page " ++ page.repr))
  | some response =>
    if !isSuccess response.status then
      return .error (.ofMessage ("list stories failed: " ++ statusText response.status))
    else
      match response.listing? with
      | none => return .error (networkFailure "decoding story list")
      | some stories => return idsOf stories

/-- The identifiers on the pages of a listing from one on, at most `limit` pages. -/
def idsFrom (component : String) : (limit : Nat) → (page : Nat) →
    m (Except Failure (List String))
  | 0, _ => return .error (.ofMessage "story listing has no end")
  | limit + 1, page => do
    match ← client.pageIds component page with
    | .error f => return .error f
    | .ok ids =>
      if ids.length < pageSize then return .ok ids
      else
        match ← idsFrom component limit (page + 1) with
        | .error f => return .error f
        | .ok more => return .ok (ids ++ more)

/-- One entry with its content. -/
def story (id : String) : m (Except Failure Entry) := do
  match ← client.transport (client.storyRequest id) with
  | none => return .error (networkFailure ("fetching story " ++ id))
  | some response =>
    if !isSuccess response.status then
      return .error
        (.ofMessage ("fetch story " ++ id ++ " failed: " ++ statusText response.status))
    else
      match response.story? with
      | none => return .error (networkFailure ("decoding story " ++ id))
      | some entry => return .ok entry

/-- Some entries, one after the other. -/
def stories : List String → m (Except Failure (List Entry))
  | [] => return .ok []
  | id :: rest => do
    match ← client.story id with
    | .error f => return .error f
    | .ok entry =>
      match ← stories rest with
      | .error f => return .error f
      | .ok entries => return .ok (entry :: entries)

/-- The entries that are listed for a component, with their content. -/
def entriesWith (component : String) : m (Except Failure (List Entry)) := do
  match ← client.idsFrom component client.pageLimit 1 with
  | .error f => return .error f
  | .ok ids => client.stories ids

/-- Replaces an entry; the result is what the space holds then. -/
def put (entry : Entry) : m (Except Failure Entry) := do
  match entry.id? with
  | none => return .error (.ofMessage "entry has no id")
  | some id =>
    match ← client.transport (client.updateRequest id entry) with
    | none => return .error (networkFailure ("updating story " ++ id))
    | some response =>
      if !isSuccess response.status then
        return .error (.ofMessage
          ("update story " ++ id ++ " failed: " ++ statusText response.status ++ " "
            ++ response.text))
      else
        match response.story? with
        | none => return .error (networkFailure ("decoding story " ++ id))
        | some entry => return .ok entry

/-- The client as a content API. -/
def api : ContentApi m where
  credentials := client.credentials
  entriesWith := client.entriesWith
  put := client.put

end Client

end Blokwork.Http
