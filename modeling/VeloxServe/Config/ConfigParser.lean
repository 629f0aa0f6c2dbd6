import VeloxServe.Config.ServerConfig
import VeloxServe.Framework.TokenParser

/-! # Configuration Parser

    `include/config/config_parser.h` and `src/config/config_parser.cpp`: a
    tokenizer and a recursive descent parser. A parse function works on the
    tokens from `pos_` on and gives back those that are left; what it throws is
    an error value. Type and value of a token are one, so that a brace has no
    other text. The loops take a token in each iteration, which is why they end.
-/

namespace VeloxServe

open StdString TokenParser

/-! ## Tokens -/

inductive TokenType where
  | word
  | lbrace
  | rbrace
  | semicolon
  deriving DecidableEq

/-- Type and value of a token. -/
inductive Lexeme where
  | word (value : Word)
  | lbrace
  | rbrace
  | semicolon
  deriving DecidableEq

structure Token where
  lexeme : Lexeme
  /-- For error messages. -/
  line : Int

def TokenType.name : TokenType → Bytes
  | .word => bytes "WORD"
  | .lbrace => bytes "'\x7b'"
  | .rbrace => bytes "'\x7d'"
  | .semicolon => bytes "';'"

namespace Lexeme

def type : Lexeme → TokenType
  | .word _ => .word
  | .lbrace => .lbrace
  | .rbrace => .rbrace
  | .semicolon => .semicolon

def value : Lexeme → Bytes
  | .word value => value.val
  | .lbrace => bytes "\x7b"
  | .rbrace => bytes "\x7d"
  | .semicolon => bytes ";"

end Lexeme

/-- What the parser throws. -/
inductive ConfigException where
  | configError (line : Int) (message : Bytes)
  | runtimeError (message : Bytes)
  | conversion (e : ConversionError)
  deriving DecidableEq

namespace ConfigParser

/-! ## Tokenizer -/

/-- A byte that goes on with a word. -/
def isWordByte (b : UInt8) : Bool := !isSpace b && b ≠ 123 && b ≠ 125 && b ≠ 59 && b ≠ 35

theorem isWord_takeWhile {c : UInt8} (h : isWordByte c = true) (rest : Bytes) :
    IsWord ((c :: rest).takeWhile isWordByte) := by
  refine ⟨by simp [h], fun b hb => ?_⟩
  have hbyte := List.mem_takeWhile_imp hb
  unfold isWordByte at hbyte
  by_contra hspace
  simp [hspace] at hbyte

theorem isWordByte_of_not {c : UInt8} (hspace : ¬ isSpace c = true) (hhash : ¬ c = 35)
    (hlbrace : ¬ c = 123) (hrbrace : ¬ c = 125) (hsemicolon : ¬ c = 59) : isWordByte c = true := by
  unfold isWordByte
  simp [hspace, hhash, hlbrace, hrbrace, hsemicolon]

/-- The tokens of the rest of the input, which begins in a line. -/
def tokenizeFrom (line : Int) : Bytes → List Token
  | [] => []
  | c :: rest =>
    if c = 10 then tokenizeFrom (line + 1) rest
    else if hspace : isSpace c then tokenizeFrom line rest
    -- a comment goes on until the end of the line
    else if hhash : c = 35 then tokenizeFrom line (rest.dropWhile (· ≠ 10))
    else if hlbrace : c = 123 then ⟨.lbrace, line⟩ :: tokenizeFrom line rest
    else if hrbrace : c = 125 then ⟨.rbrace, line⟩ :: tokenizeFrom line rest
    else if hsemicolon : c = 59 then ⟨.semicolon, line⟩ :: tokenizeFrom line rest
    else
      have h := isWordByte_of_not hspace hhash hlbrace hrbrace hsemicolon
      ⟨.word ⟨(c :: rest).takeWhile isWordByte, isWord_takeWhile h rest⟩, line⟩ ::
        tokenizeFrom line (rest.dropWhile isWordByte)
termination_by s => s.length
decreasing_by
  all_goals
    have hcomment := List.length_dropWhile_le (· ≠ 10) rest
    have hword := List.length_dropWhile_le isWordByte rest
    simp only [List.length_cons]
    omega

def tokenize (input : Bytes) : List Token := tokenizeFrom 1 input

/-! ## Parser Helpers -/

abbrev Parse (α : Type) : Type := TokenParser Token ConfigException α

def error {α : Type} (message : Bytes) : Parse α := fun tokens =>
  let line := match tokens with
    | [] => -1
    | current :: _ => current.line
  .error (.configError line message)

def consume (expected : TokenType) : Parse { l : Lexeme // l.type = expected } := fun tokens =>
  match tokens with
  | [] => error (bytes "Unexpected end of file, expected " ++ expected.name) tokens
  | current :: rest =>
    if h : current.lexeme.type = expected then .ok (⟨current.lexeme, h⟩, rest)
    else
      error (bytes "Expected " ++ expected.name ++ bytes " but got " ++ current.lexeme.type.name ++
        bytes " '" ++ current.lexeme.value ++ bytes "'") tokens

def check (type : TokenType) : List Token → Bool
  | [] => false
  | current :: _ => current.lexeme.type = type

def checkWord (value : Bytes) : List Token → Bool
  | [] => false
  | current :: _ => current.lexeme.type = .word && current.lexeme.value = value

def toWord : { l : Lexeme // l.type = .word } → Word
  | ⟨.word value, _⟩ => value

/-- `consume(TokenType::WORD).value`. -/
def consumeWord : Parse Word := do
  let l ← consume .word
  return toWord l

/-- What `std::stoi` and `std::stoul` throw is not caught. -/
def number {α : Type} : Except ConversionError α → Parse α
  | .ok n => pure n
  | .error e => fun _ => .error (.conversion e)

/-- `x = consume(TokenType::WORD).value; consume(TokenType::SEMICOLON);`. -/
def wordAndSemicolon : Parse Word := do
  let value ← consumeWord
  let _ ← consume .semicolon
  return value

/-- The same with a conversion of the value, which throws before the `;` is looked at. -/
def convertedAndSemicolon {α : Type} (convert : Bytes → Except ConversionError α) : Parse α := do
  let value ← consumeWord
  let n ← number (convert value.val)
  let _ ← consume .semicolon
  return n

/-- `if (at_end()) error(message)`, in front of the rest of a loop body. -/
def unlessAtEnd {α : Type} (message : Bytes) (p : Parse α) : Parse α := fun tokens =>
  if tokens.isEmpty then error message tokens else p tokens

/-- Choose by the next token. -/
def ifWord {α : Type} (value : Bytes) (p q : Parse α) : Parse α := fun tokens =>
  if checkWord value tokens then p tokens else q tokens

/-! ## Progress -/

theorem consume_shrinks (expected : TokenType) : Shrinks (consume expected) := by
  intro tokens l rest h
  unfold consume at h
  cases tokens with
  | nil => cases h
  | cons current tokens =>
    dsimp only at h
    split at h
    · obtain ⟨-, rfl⟩ := Prod.mk.inj (Except.ok.inj h)
      exact Nat.lt_succ_self _
    · cases h

theorem consumeWord_shrinks : Shrinks consumeWord :=
  (consume_shrinks .word).bind fun _ => Keeps.pure _

theorem number_keeps {α : Type} (r : Except ConversionError α) : Keeps (number r) := by
  cases r with
  | ok n => exact Keeps.pure n
  | error e =>
    intro tokens a rest h
    cases h

theorem wordAndSemicolon_shrinks : Shrinks wordAndSemicolon :=
  consumeWord_shrinks.bind fun _ => ((consume_shrinks .semicolon).bind fun _ => Keeps.pure _).keeps

theorem convertedAndSemicolon_shrinks {α : Type} (convert : Bytes → Except ConversionError α) :
    Shrinks (convertedAndSemicolon convert) :=
  consumeWord_shrinks.bind fun _ => (number_keeps _).bind fun _ =>
    ((consume_shrinks .semicolon).bind fun _ => Keeps.pure _).keeps

theorem error_shrinks {α : Type} (message : Bytes) : Shrinks (error message : Parse α) := by
  intro tokens a rest h
  cases h

theorem unlessAtEnd_shrinks {α : Type} {message : Bytes} {p : Parse α} (h : Shrinks p) :
    Shrinks (unlessAtEnd message p) := by
  intro tokens a rest hok
  unfold unlessAtEnd at hok
  split at hok
  · cases hok
  · exact h tokens a rest hok

theorem ifWord_shrinks {α : Type} {value : Bytes} {p q : Parse α} (hp : Shrinks p)
    (hq : Shrinks q) : Shrinks (ifWord value p q) := by
  intro tokens a rest hok
  unfold ifWord at hok
  split at hok
  · exact hp tokens a rest hok
  · exact hq tokens a rest hok

/-! ## Location Blocks -/

/-- The loop body of `methods`. -/
def parseMethod : Body Token ConfigException LocationConfig where
  run := fun loc => do
    let method ← consumeWord
    return loc.addMethod method
  shrinks := fun _ => consumeWord_shrinks.bind fun _ => Keeps.pure _

def parseLocationDirective (loc : LocationConfig) : Parse LocationConfig := do
  let directive ← consumeWord
  if directive.val = bytes "root" then
    let root ← wordAndSemicolon
    return { loc with root := root.val }
  else if directive.val = bytes "index" then
    let indexFile ← wordAndSemicolon
    return { loc with indexFile := indexFile.val }
  else if directive.val = bytes "proxy_pass" then
    let proxyPass ← wordAndSemicolon
    return { loc with proxyPass := proxyPass.val }
  else if directive.val = bytes "methods" then
    let loc ← parseMethod.loop (fun tokens => !check .word tokens) loc
    let _ ← consume .semicolon
    return loc
  else if directive.val = bytes "autoindex" then
    let val ← wordAndSemicolon
    return { loc with
      autoindex := val.val = bytes "on" || val.val = bytes "true" || val.val = bytes "yes" }
  else error (bytes "Unknown location directive: " ++ directive.val)

theorem parseLocationDirective_shrinks (loc : LocationConfig) :
    Shrinks (parseLocationDirective loc) := by
  apply consumeWord_shrinks.bind
  intro directive
  split_ifs
  · exact wordAndSemicolon_shrinks.keeps.bind fun _ => Keeps.pure _
  · exact wordAndSemicolon_shrinks.keeps.bind fun _ => Keeps.pure _
  · exact wordAndSemicolon_shrinks.keeps.bind fun _ => Keeps.pure _
  · exact (parseMethod.loop_keeps _ loc).bind fun _ =>
      (consume_shrinks .semicolon).keeps.bind fun _ => Keeps.pure _
  · exact wordAndSemicolon_shrinks.keeps.bind fun _ => Keeps.pure _
  · exact (error_shrinks _).keeps

/-- The loop body of `parse_location_block`. -/
def locationItem : Body Token ConfigException LocationConfig where
  run := fun loc =>
    unlessAtEnd (bytes "Unclosed location block — missing '\x7d'") (parseLocationDirective loc)
  shrinks := fun loc => unlessAtEnd_shrinks (parseLocationDirective_shrinks loc)

def parseLocationBlock : Parse LocationConfig := do
  let _ ← consumeWord
  let path ← consumeWord
  let _ ← consume .lbrace
  let loc ← locationItem.loop (check .rbrace)
    { path := path.val, methods_words := List.forall_mem_nil _ }
  let _ ← consume .rbrace
  return loc

theorem parseLocationBlock_shrinks : Shrinks parseLocationBlock :=
  consumeWord_shrinks.bind fun _ => consumeWord_shrinks.keeps.bind fun _ =>
    (consume_shrinks .lbrace).keeps.bind fun _ => (locationItem.loop_keeps _ _).bind fun _ =>
      (consume_shrinks .rbrace).keeps.bind fun _ => Keeps.pure _

/-! ## Server Blocks -/

/-- The value of `listen`: `8080` or `0.0.0.0:8080`. -/
def listen (config : ServerConfig) (value : Bytes) : Except ConversionError ServerConfig :=
  match find (bytes ":") value with
  | some colon => do
    let port ← stoi (value.drop (colon + 1))
    return { config with host := value.take colon, port := port }
  | none => do
    let port ← stoi value
    return { config with port := port }

/-- `"10M"` in bytes. -/
def parseSize (str : Bytes) : Except ConversionError Nat :=
  match str.getLast? with
  | none => .ok 0
  | some suffix =>
    let (numberPart, multiplier) :=
      if suffix = 75 ∨ suffix = 107 then (str.dropLast, 1024)
      else if suffix = 77 ∨ suffix = 109 then (str.dropLast, 1024 * 1024)
      else if suffix = 71 ∨ suffix = 103 then (str.dropLast, 1024 * 1024 * 1024)
      else (str, 1)
    -- `size_t` arithmetic
    (stoul numberPart).map fun n => n * multiplier % 2 ^ 64

/-- `error_pages[code] = path`. -/
def setErrorPage (config : ServerConfig) (code : Int) (path : Bytes) : ServerConfig :=
  { config with errorPages := fun c => if c = code then some path else config.errorPages c }

def parseServerDirective (config : ServerConfig) : Parse ServerConfig := do
  let directive ← consumeWord
  if directive.val = bytes "listen" then
    convertedAndSemicolon (listen config)
  else if directive.val = bytes "server_name" then
    let serverName ← wordAndSemicolon
    return { config with serverName := serverName.val }
  else if directive.val = bytes "root" then
    let root ← wordAndSemicolon
    return { config with root := root.val }
  else if directive.val = bytes "error_page" then
    let code ← consumeWord
    let code ← number (stoi code.val)
    let path ← wordAndSemicolon
    return setErrorPage config code path.val
  else if directive.val = bytes "client_max_body_size" then
    let size ← convertedAndSemicolon parseSize
    return { config with clientMaxBodySize := size }
  else if directive.val = bytes "rate_limit" then
    let rateLimit ← convertedAndSemicolon stoi
    return { config with rateLimit := rateLimit }
  else error (bytes "Unknown server directive: " ++ directive.val)

theorem parseServerDirective_shrinks (config : ServerConfig) :
    Shrinks (parseServerDirective config) := by
  apply consumeWord_shrinks.bind
  intro directive
  split_ifs
  · exact (convertedAndSemicolon_shrinks _).keeps
  · exact wordAndSemicolon_shrinks.keeps.bind fun _ => Keeps.pure _
  · exact wordAndSemicolon_shrinks.keeps.bind fun _ => Keeps.pure _
  · exact consumeWord_shrinks.keeps.bind fun _ => (number_keeps _).bind fun _ =>
      wordAndSemicolon_shrinks.keeps.bind fun _ => Keeps.pure _
  · exact (convertedAndSemicolon_shrinks _).keeps.bind fun _ => Keeps.pure _
  · exact (convertedAndSemicolon_shrinks _).keeps.bind fun _ => Keeps.pure _
  · exact (error_shrinks _).keeps

/-- `locations.push_back(loc)`. -/
def addLocation (config : ServerConfig) (loc : LocationConfig) : ServerConfig :=
  { config with locations := config.locations ++ [loc] }

/-- The loop body of `parse_server_block`. -/
def serverItem : Body Token ConfigException ServerConfig where
  run := fun config =>
    unlessAtEnd (bytes "Unclosed server block — missing '\x7d'")
      (ifWord (bytes "location")
        (do
          let loc ← parseLocationBlock
          return addLocation config loc)
        (parseServerDirective config))
  shrinks := fun config =>
    unlessAtEnd_shrinks
      (ifWord_shrinks (parseLocationBlock_shrinks.bind fun _ => Keeps.pure _)
        (parseServerDirective_shrinks config))

def parseServerBlock : Parse ServerConfig := do
  let _ ← consumeWord
  let _ ← consume .lbrace
  let config ← serverItem.loop (check .rbrace) {}
  let _ ← consume .rbrace
  return config

theorem parseServerBlock_shrinks : Shrinks parseServerBlock :=
  consumeWord_shrinks.bind fun _ => (consume_shrinks .lbrace).keeps.bind fun _ =>
    (serverItem.loop_keeps _ _).bind fun _ =>
      (consume_shrinks .rbrace).keeps.bind fun _ => Keeps.pure _

/-! ## Upstream Blocks -/

/-- `s.find_last_of(c)`. -/
def findLastOf (c : UInt8) (s : Bytes) : Option Nat :=
  if c ∈ s then some (s.length - 1 - (s.reverse.takeWhile (· ≠ c)).length) else none

example : findLastOf 58 (bytes "::1:80") = some 3 := by decide

/-- `servers.push_back` of `127.0.0.1:3001`, or of a host alone. -/
def addServer (upstream : UpstreamConfig) (addr : Bytes) : Except ConversionError UpstreamConfig :=
  match findLastOf 58 addr with
  | some colon => do
    let port ← stoi (addr.drop (colon + 1))
    return { upstream with servers := upstream.servers ++ [(addr.take colon, port)] }
  | none => .ok { upstream with servers := upstream.servers ++ [(addr, 80)] }

/-- The directives in the loop of `parse_upstream_block`. -/
def parseUpstreamDirective (upstream : UpstreamConfig) : Parse UpstreamConfig := do
  let directive ← consumeWord
  if directive.val = bytes "server" then
    convertedAndSemicolon (addServer upstream)
  else if directive.val = bytes "health_check_interval" then
    let interval ← convertedAndSemicolon stoi
    return { upstream with healthCheckInterval := interval }
  else error (bytes "Unknown upstream directive: " ++ directive.val)

theorem parseUpstreamDirective_shrinks (upstream : UpstreamConfig) :
    Shrinks (parseUpstreamDirective upstream) := by
  apply consumeWord_shrinks.bind
  intro directive
  split_ifs
  · exact (convertedAndSemicolon_shrinks _).keeps
  · exact (convertedAndSemicolon_shrinks _).keeps.bind fun _ => Keeps.pure _
  · exact (error_shrinks _).keeps

/-- The loop body of `parse_upstream_block`. -/
def upstreamItem : Body Token ConfigException UpstreamConfig where
  run := fun upstream =>
    unlessAtEnd (bytes "Unclosed upstream block — missing '\x7d'")
      (parseUpstreamDirective upstream)
  shrinks := fun upstream => unlessAtEnd_shrinks (parseUpstreamDirective_shrinks upstream)

def parseUpstreamBlock : Parse UpstreamConfig := do
  let _ ← consumeWord
  let name ← consumeWord
  let _ ← consume .lbrace
  let upstream ← upstreamItem.loop (check .rbrace) { name := name.val }
  let _ ← consume .rbrace
  return upstream

theorem parseUpstreamBlock_shrinks : Shrinks parseUpstreamBlock :=
  consumeWord_shrinks.bind fun _ => consumeWord_shrinks.keeps.bind fun _ =>
    (consume_shrinks .lbrace).keeps.bind fun _ => (upstreamItem.loop_keeps _ _).bind fun _ =>
      (consume_shrinks .rbrace).keeps.bind fun _ => Keeps.pure _

/-! ## The Whole Configuration -/

/-- The blocks parsed so far: `configs` and `upstreams_`. -/
structure Parsed where
  configs : List ServerConfig := []
  upstreams : Bytes → Option UpstreamConfig := fun _ => none

def Parsed.addConfig (parsed : Parsed) (config : ServerConfig) : Parsed :=
  { parsed with configs := parsed.configs ++ [config] }

/-- `upstreams_[upstream.name] = upstream`. -/
def Parsed.setUpstream (parsed : Parsed) (upstream : UpstreamConfig) : Parsed :=
  { parsed with
    upstreams := fun name => if name = upstream.name then some upstream else parsed.upstreams name }

/-- The value of the token the parser has come to. -/
def currentValue : List Token → Bytes
  | [] => bytes "<EOF>"
  | current :: _ => current.lexeme.value

/-- The loop body of `parse_config`. -/
def configItem : Body Token ConfigException Parsed where
  run := fun parsed =>
    ifWord (bytes "server")
      (do
        let config ← parseServerBlock
        return parsed.addConfig config)
      (ifWord (bytes "upstream")
        (do
          let upstream ← parseUpstreamBlock
          return parsed.setUpstream upstream)
        (fun tokens =>
          error (bytes "Expected 'server' or 'upstream' block, got '" ++ currentValue tokens ++
            bytes "'") tokens))
  shrinks := fun _ =>
    ifWord_shrinks (parseServerBlock_shrinks.bind fun _ => Keeps.pure _)
      (ifWord_shrinks (parseUpstreamBlock_shrinks.bind fun _ => Keeps.pure _)
        fun tokens a rest h => by cases h)

def parseConfig (tokens : List Token) : Except ConfigException Parsed :=
  match configItem.loop (·.isEmpty) {} tokens with
  | .error e => .error e
  | .ok (parsed, _) =>
    if parsed.configs = [] then
      .error (.runtimeError (bytes "Config file must contain at least one server block"))
    else .ok parsed

def parseString (input : Bytes) : Except ConfigException Parsed := parseConfig (tokenize input)

end ConfigParser

end VeloxServe
