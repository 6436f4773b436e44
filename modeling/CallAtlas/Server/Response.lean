import CallAtlas.Error
import CallAtlas.Server.Request

/-!
# Responses of a server

A response has a status code and a body, which is data, text, or the issues with a
request. Successful data say so; anything else explains itself in a detail.
-/

namespace CallAtlas.Server

/-- What a response holds. -/
inductive Body
  | data (d : Datum)
  | text (s : String)
  | issues (list : List Issue)
deriving Repr

/-- The kind of content of a body. -/
def Body.contentType : Body → String
  | data _ | issues _ => "application/json"
  | text _ => "text/plain; charset=utf-8"

/-- A response. -/
structure Response where
  code : Nat
  body : Body
deriving Repr

namespace Response

/-- A text. -/
def text (s : String) : Response :=
  ⟨200, .text s⟩

/-- Data, perhaps with a message. -/
def success (message : Option String) (d : Datum) : Response :=
  ⟨200, .data (.record ([("status", .text "success")] ++
    (message.map fun m => ("message", Datum.text m)).toList ++ [("data", d)]))⟩

/-- Data of which there are some. -/
def counted (n : Nat) (what : String) (d : Datum) : Response :=
  success (some (toString n ++ " " ++ what)) d

/-- A code with an explanation. -/
def detail (code : Nat) (d : Datum) : Response :=
  ⟨code, .data (.record [("detail", d)])⟩

/-- A code with an explanation in words. -/
def explained (code : Nat) (wording : String) : Response :=
  detail code (.text wording)

/-- What is answered when an operation fails in a way it does not foresee. -/
def collapse : Response :=
  ⟨500, .text "Internal Server Error"⟩

/-- The answer to a refused request. -/
def ofRefusal : Refusal → Response
  | .pathUnknown => explained 404 "Not Found"
  | .methodUnfit => explained 405 "Method Not Allowed"
  | .invalid issues => ⟨422, .issues issues⟩

/-- The answer to an operation that asked for something absent or for a store that cannot be
used. -/
def ofError? (e : AnalysisError) : Option Response :=
  match e with
  | .functionAbsent .. => some (detail 404 e.toDatum)
  | .storeUnavailable .. => some (detail 503 e.toDatum)
  | _ => none

end Response
end CallAtlas.Server
