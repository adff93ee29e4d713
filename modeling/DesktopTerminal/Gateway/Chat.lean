import DesktopTerminal.Desktop
import DesktopTerminal.Gateway.Address
import DesktopTerminal.Gateway.Request
import DesktopTerminal.Tree.Encoding

/-!
# Gateways that chat

A gateway may be a chat service on the web. A request is posted to it as a conversation of two
messages, what the service is to do and what there is to answer; the text of the first choice that
comes back is the answer.
-/
namespace DesktopTerminal.Chat

/-- What is posted to a service. -/
structure Post where
  address : Address
  authorization : Option String
  body : Json
deriving Repr

/-- What a service sends back. -/
structure Response where
  status : Nat
  body : String
deriving DecidableEq, Repr

def instruction : String :=
  "You are the terminal of a Linux desktop. The user typed a command that " ++
  "the shell does not implement. Reply with exactly what the command would print on this system, " ++
  "as plain text. Never use markdown or code fences. Never explain. Base file and directory names " ++
  "on the filesystem JSON you are given. If the command could not exist, reply " ++
  "`<command>: command not found`."

def question (r : GatewayRequest) : String :=
  "Working directory: " ++ r.cwd ++ "\nFilesystem: " ++ r.outline.compact ++
    "\nCommand: " ++ r.line

def message (role content : String) : Json :=
  .object [("role", .text role), ("content", .text content)]

def body (model : String) (r : GatewayRequest) : Json :=
  .object [("model", .text model),
    ("messages", .array [message "system" instruction, message "user" (question r)]),
    ("temperature", .number 2 (-1))]

/-- Where a service takes posts: below its address, the slashes at whose end do not count. -/
def postUrl (e : Endpoint) : String :=
  String.ofList (Text.dropEndWhile (· == '/') e.url.toList) ++ "/chat/completions"

/-- Whether a character may stand in a header: no control character but the tab. -/
def isHeaderChar (c : Char) : Bool := c == '\t' || (32 ≤ c.toNat && c.toNat ≠ 127)

def isHeaderBlank (c : Char) : Bool := c == ' ' || c == '\t'

/-- The header that proves who is asking. Blanks at its end do not count. -/
def authorization? (key : String) : Option String :=
  if key.toList.all isHeaderChar then
    some (String.ofList (Text.dropEndWhile isHeaderBlank ("Bearer " ++ key).toList))
  else none

/-- What is posted to an endpoint, unless its address or its key does not allow it. -/
def post? (e : Endpoint) (r : GatewayRequest) : Option Post := do
  let address ← Address.ofUrl? (postUrl e)
  match e.apiKey with
  | none => some ⟨address, none, body e.model r⟩
  | some key => some ⟨address, some (← authorization? key), body e.model r⟩

/-- The text of a message, if it has one. -/
def content? (j : Json) : Option (Option String) :=
  match Json.fields? ["content"] j with
  | some [content] => Json.optional? Json.text? content
  | _ => none

/-- The text of a choice, which must hold a message. -/
def choice? (j : Json) : Option (Option String) :=
  match Json.fields? ["message"] j with
  | some [some m] => content? m
  | _ => none

/-- The texts of all choices. -/
def choices? (j : Json) : Option (List (Option String)) :=
  match Json.fields? ["choices"] j with
  | some [none] => some []
  | some [some (.array items)] => items.mapM choice?
  | _ => none

/-- How much of an error is told. -/
def errorLimit : Nat := 200

/-- An error on one line. -/
def summary (text : String) : String :=
  String.ofList ((Text.joinWith " " (Text.words text)).toList.take errorLimit)

/-- Two kinds of response have no body, whatever follows them. -/
def Response.content (r : Response) : String :=
  if r.status = 204 ∨ r.status = 304 then "" else r.body

/-- The answer that the first choice gives. -/
def firstAnswer : List (Option String) → GatewayAnswer
  | some text :: _ => if Text.isBlankText text then .error .emptyResponse else .ok text
  | _ => .error .emptyResponse

/-- What a response says. -/
def Response.answer (r : Response) : GatewayAnswer :=
  if r.status < 200 then .error (.transport "no final response")
  else if r.status < 300 then
    match (Json.read r.content).bind choices? with
    | some choices => firstAnswer choices
    | none => .error (.transport "error decoding response body")
  else .error (.status r.status (summary r.content))

/-- The gateway at an endpoint, posts to which are answered by `exchange` if they arrive. -/
def gateway (exchange : Post → Option Response) (e : Endpoint) : Gateway := fun r =>
  match post? e r with
  | none => .error (.transport "builder error")
  | some post =>
    match exchange post with
    | none => .error (.transport ("error sending request for url (" ++ postUrl e ++ ")"))
    | some response => response.answer

/-- The gateway of a configuration. -/
def gatewayOf (exchange : Post → Option Response) (c : Config) : Gateway :=
  match c.endpoint with
  | none => offlineGateway
  | some e => gateway exchange e

end DesktopTerminal.Chat
