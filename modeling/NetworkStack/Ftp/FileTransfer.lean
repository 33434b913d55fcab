import NetworkStack.Ftp.FtpUtils
import NetworkStack.Ftp.Replies
import NetworkStack.Lib.Hoare
import NetworkStack.Socket.ReadExact

/-!
# File transfers over FTP (protocol/FtpFileTransfer.cpp)

The public operations and what they are made of, over any control channel: how
bytes go out on it, how a reply is read from it and how a data socket is opened
are parameters. Early returns stop the computation. A wait that times out is an event
of its socket, so what timeout it was given is no more than a note of the channel.
-/

namespace NetworkStack.Ftp

open Hoare SocketDetail Utility

/- How an operation ends other than by returning a value: with an error code, with an
exception, in undefined behaviour, or not at all. -/
inductive Exit where
  | error (ec : ErrorCode)
  | threw
  | undefined
  | blocked
  deriving DecidableEq

structure Channel (σ : Type) where
  writeAll : Bytes → Act σ Exit Unit
  receiveResponse : Act σ Exit Answer
  connectData : Endpoint → Act σ Exit Socket
  /-- Notes the timeout that the calls on a data socket are given. -/
  waitOnData : σ → σ

structure FtpCapabilities where
  mlst : Bool
  nlst : Bool
  list_cmd : Bool
  size : Bool
  mdtm : Bool
  rename : Bool
  epsv : Bool
  pasv : Bool
  feat : Bool

def FtpCapabilities.default : FtpCapabilities :=
  ⟨false, false, true, false, false, false, false, true, false⟩

/- The navigator's session is the control channel. `transfers` lists the data sockets as the
transfers so far have left them; no operation looks at it. -/
structure FtpFileTransfer (σ : Type) where
  navigator : SmartDirectoryNavigator σ
  capabilities : FtpCapabilities
  transfers : List Socket

variable {σ α β : Type}

def protocolError : Exit := .error (.network .PROTOCOL_ERROR)

/-! ### The control channel -/

namespace Channel

variable (W : Channel σ)

def sendCommand (cmd : Bytes) : Act σ Exit Unit := W.writeAll (cmd ++ crlf)

def sendAndReceiveResponse (cmd : Bytes) : Act σ Exit Answer := do
  W.sendCommand cmd
  W.receiveResponse

/-- The navigator's `ftpCd`; a drive is selected by the same command. -/
def ftpCd (dir : Bytes) : Act σ Exit Unit := do
  let cmd_result ← W.sendAndReceiveResponse (ascii "CWD " ++ dir)
  if cmd_result.code ≠ 250 then stop protocolError else pure ()

def navigator : Transport Exit σ := ⟨W.ftpCd, W.ftpCd⟩

end Channel

namespace FtpFileTransfer

variable (W : Channel σ)

def construct (session : σ) : FtpFileTransfer σ :=
  ⟨.construct (ascii "/") session, .default, []⟩

def session (s : FtpFileTransfer σ) : σ := s.navigator.session

def withSession (s : FtpFileTransfer σ) (session : σ) : FtpFileTransfer σ :=
  { s with navigator := { s.navigator with session := session } }

abbrev Operation (σ α : Type) := Act (FtpFileTransfer σ) Exit α

def control (m : Act σ Exit α) : Operation σ α := zoom session withSession m

def changeDirectory (path : Path) : Operation σ Unit := fun s =>
  let (r, navigator) := Utility.changeDirectory W.navigator s.navigator path
  (r, { s with navigator := navigator })

/-- What `result.has_value()` looks at: exceptions and the rest are not results. -/
def hasValue (m : Operation σ α) : Operation σ (Except ErrorCode α) :=
  attempt (fun e => match e with
    | .error ec => some ec
    | _ => none) m

def getCapabilities : Operation σ FtpCapabilities := fun s => (.ok s.capabilities, s)

/-! ### Probes -/

/-- The codes that mean yes and no; any other is a protocol error. -/
def probe (cmd : Bytes) (yes : ℕ) (no : List ℕ) : Operation σ Bool := do
  let cmd_result ← control (W.sendAndReceiveResponse cmd)
  if cmd_result.code = yes then pure true
  else if cmd_result.code ∈ no then pure false
  else stop protocolError

def existsMlst (name : Bytes) : Operation σ Bool := do
  let capabilities ← getCapabilities
  if capabilities.mlst = false then pure false
  else probe W (ascii "MLST " ++ name) 250 [550]

def existsSize (name : Bytes) : Operation σ Bool := probe W (ascii "SIZE " ++ name) 213 [550, 500]

/-- Goes back up after a granted `CWD`, whether that works or not. -/
def existsCwd (name : Bytes) : Operation σ Bool := do
  let entered ← probe W (ascii "CWD " ++ name) 250 [550]
  if entered then
    let _ ← hasValue (control (W.ftpCd Path.dotdot))
    pure true
  else pure false

def ifCapable (capability : Bool) (m : Operation σ Bool) : Operation σ (Except ErrorCode Bool) :=
  if capability then hasValue m else pure (.ok false)

def exists_ (remote_path : Path) : Operation σ Bool := do
  let name := remote_path.filename
  if name = [] then pure true
  else
    changeDirectory W remote_path.parent_path
    let capabilities ← getCapabilities
    let mlst ← ifCapable capabilities.mlst (existsMlst W name)
    if mlst.toOption = some true then pure true
    else
      let size ← ifCapable capabilities.size (existsSize W name)
      if size.toOption = some true then pure true
      else
        let result ← hasValue (existsCwd W name)
        pure (result.toOption.getD false)

def isDirectoryMlst (name : Bytes) : Operation σ Bool := do
  let capabilities ← getCapabilities
  if capabilities.mlst = false then pure false
  else
    let cmd_result ← control (W.sendAndReceiveResponse (ascii "MLST " ++ name))
    if cmd_result.code = 250 then
      match typeIsDir cmd_result.full_msg with
      | none => stop protocolError
      | some isDir => pure isDir
    else stop protocolError

def isDirectoryCwd (name : Bytes) : Operation σ Bool := do
  let entered ← probe W (ascii "CWD " ++ name) 250 [550]
  if entered then
    let restored ← hasValue (control (W.ftpCd Path.dotdot))
    match restored with
    | .error _ => stop protocolError
    | .ok _ => pure true
  else
    let capabilities ← getCapabilities
    if capabilities.size then
      let isFile ← existsSize W name
      if isFile then pure false else stop protocolError
    else stop protocolError

def isDirectory (path : Path) : Operation σ Bool := do
  let name := path.filename
  if name = [] then pure true
  else
    changeDirectory W path.parent_path
    let capabilities ← getCapabilities
    if capabilities.mlst then
      let result ← hasValue (isDirectoryMlst W name)
      match result with
      | .ok isDir => pure isDir
      | .error _ => isDirectoryCwd W name
    else isDirectoryCwd W name

def get_last_component (p : Path) : Path :=
  if p.filename = [] then p.parent_path.filename else p.filename

def perform (cmd : Bytes) (success : ℕ) : Operation σ Unit := do
  let cmd_result ← control (W.sendAndReceiveResponse cmd)
  if cmd_result.code ≠ success then stop protocolError else pure ()

def createDir (path : Path) : Operation σ Unit := do
  let exists_result ← exists_ W path
  if exists_result then pure ()
  else
    changeDirectory W path.parent_path
    perform W (ascii "MKD " ++ get_last_component path) 257

def remove (remote_path : Path) : Operation σ Unit := do
  let is_dir ← isDirectory W remote_path
  changeDirectory W remote_path.parent_path
  perform W
    ((if is_dir then ascii "RMD" else ascii "DELE") ++ ascii " " ++ remote_path.filename) 250

/-! ### The data channel -/

/- An endpoint that did not parse is dereferenced all the same. -/
def openDataConnection : Operation σ Socket := do
  let pasv_result ← control (W.sendAndReceiveResponse (ascii "PASV"))
  if pasv_result.code ≠ 227 then stop protocolError
  else
    match parsePasvResponse pasv_result.full_msg with
    | none => stop .undefined
    | some endpoint => control (W.connectData endpoint)

/-- The transfer is through with its data socket. -/
def leave (s : FtpFileTransfer σ) (data : Socket) : FtpFileTransfer σ :=
  { s.withSession (W.waitOnData s.session) with transfers := s.transfers ++ [data] }

/-- The calls on the data socket, with what they leave of it; `none` while one has not
returned. -/
def onData (call : Option (Except ErrorCode α × Socket)) : Operation σ α := fun s =>
  match call with
  | none => (.error .blocked, s)
  | some (r, data) => (r.mapError .error, s.leave W data)

/- The reads of a transfer, up to the end of the stream. What was read goes through
`consume`, which may end the transfer. -/
def readAll {γ : Type} (size : ℕ) (consume : γ → Bytes → Except ErrorCode γ) (g : γ)
    (data : Socket) : Option (Except ErrorCode γ × Socket) :=
  match _h : asyncReadSomeCommon data (List.replicate size 0) with
  | none => none
  | some ⟨.error ec, _, next⟩ => some (if ec = .asio .eof then .ok g else .error ec, next)
  | some ⟨.ok n, out, next⟩ =>
    if _hn : n = 0 then some (.ok g, next)
    else
      match consume g (out.take n) with
      | .error ec => some (.error ec, next)
      | .ok g => readAll size consume g next
termination_by (unread data).length
decreasing_by
  obtain ⟨htook, hlen⟩ := readSome_took _h
  rw [htook.stream, List.length_append, hlen]
  omega

def receiveRawResponse (data : Socket) : Option (Except ErrorCode Bytes × Socket) :=
  readAll 1024 (fun buf bytes => .ok (buf ++ bytes)) [] data

def consumeBy {γ : Type} (callback : γ → Bytes → Except ErrorCode ℕ × γ) (g : γ × ℕ)
    (bytes : Bytes) : Except ErrorCode (γ × ℕ) :=
  match callback g.1 bytes with
  | (.error ec, _) => .error ec
  | (.ok consumed, next) =>
    if consumed ≠ bytes.length then .error (.network .PROTOCOL_ERROR)
    else .ok (next, g.2 + bytes.length)

/- `chunks` are the results of the calls of `next`; a call beyond them has not
returned. -/
def writeChunks (data : Socket) (total_bytes : ℕ) :
    List (Except ErrorCode Bytes) → Option (Except ErrorCode ℕ × Socket)
  | [] => none
  | .error ec :: _ => some (.error ec, data)
  | .ok chunk :: chunks =>
    if chunk = [] then some (.ok total_bytes, data)
    else
      match asyncWriteAllCommon data chunk with
      | (.error ec, data) => some (.error ec, data)
      | (.ok n, data) => writeChunks data (total_bytes + n) chunks

/-! ### Transfers -/

def prepareTransfer (dir : Path) : Operation σ Socket := do
  changeDirectory W dir
  openDataConnection W

def openTransfer (dir : Path) (cmd : Bytes) : Operation σ Socket := do
  let data ← prepareTransfer W dir
  let cmd_result ← control (W.sendAndReceiveResponse cmd)
  if cmd_result.code ≠ 150 then stop protocolError else pure data

/- What the five transfers have in common: `phase` is what happens on the data channel,
`finish` what comes after it. -/
def transfer (dir : Path) (cmd : Bytes) (phase : Socket → Option (Except ErrorCode α × Socket))
    (finish : α → Operation σ β) : Operation σ β := do
  let data ← openTransfer W dir cmd
  let a ← onData W (phase data)
  finish a

def completion : Operation σ Unit := do
  let response ← control W.receiveResponse
  if response.code ≠ 226 then stop protocolError else pure ()

/-- The code of the completion reply is not looked at. -/
def list (clock : Clock) (path : Path) : Operation σ (List FileListData) :=
  transfer W path (ascii "LIST") receiveRawResponse fun list_result =>
    match parseListing clock (splitLines list_result) with
    | none => stop .threw
    | some files => do
      let _ ← control W.receiveResponse
      pure files

def read (path : Path) : Operation σ Bytes :=
  transfer W path.parent_path (ascii "RETR " ++ path.filename) receiveRawResponse fun buffer => do
    completion W
    pure buffer

/-- The state that the callback is left in comes with the total. -/
def readCallback {γ : Type} (path : Path) (callback : γ → Bytes → Except ErrorCode ℕ × γ)
    (g : γ) : Operation σ (γ × ℕ) :=
  transfer W path.parent_path (ascii "RETR " ++ path.filename)
    (readAll 16384 (consumeBy callback) (g, 0)) fun (next, total_bytes) => do
      completion W
      pure (next, total_bytes)

def write (clock : Clock) (remote_dst_path : Path) (data : Bytes) : Operation σ FileListData :=
  transfer W remote_dst_path.parent_path (ascii "STOR " ++ remote_dst_path.filename)
    (fun data_socket => some (asyncWriteAllCommon data_socket data)) fun _ => do
      completion W
      pure ⟨clock.now, data.length, remote_dst_path.filename, remote_dst_path⟩

def writeCallback (clock : Clock) (remote_dst_path : Path)
    (next : List (Except ErrorCode Bytes)) : Operation σ FileListData :=
  transfer W remote_dst_path.parent_path (ascii "STOR " ++ remote_dst_path.filename)
    (fun data_socket => writeChunks data_socket 0 next) fun total_bytes => do
      completion W
      pure ⟨clock.now, total_bytes, remote_dst_path.filename, remote_dst_path⟩

end FtpFileTransfer

end NetworkStack.Ftp
