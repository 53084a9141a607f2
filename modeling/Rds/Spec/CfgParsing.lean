import Rds.Spec.NetworkUtil

/-!
# The configuration file (`cfg_parsing.c`)

A file is the list of its bytes, and a stream on it the bytes not read yet. The characters
that are read are kept in a `char`, which is signed: the byte 255 is `EOF`.
-/

namespace Rds

/-- The bytes of a text. -/
def text (cs : List Char) : List Byte := cs.map fun c => c.toNat.toUInt8

def newline : Byte := 10

def equals : Byte := 61

/-- A byte as a `char`; `none` is `EOF`. -/
def toChar (b : Byte) : Option Byte := if b = 255 then none else some b

/-- `fgetc`, its result kept in a `char`. -/
def fgetc : List Byte → Option Byte × List Byte
  | [] => (none, [])
  | b :: file => (toChar b, file)

/-- `fmstate`: at the start of a line, in a line to ignore, or in a line that started like a
setting. -/
inductive FmState
  | e | c | a | s | p | i | v
  deriving DecidableEq, Repr

/-- The loop of `compare`, by the characters it still looks at. -/
def compareChars : List Byte → List Byte → FmState → Option Byte →
    List Byte × FmState × Option Byte
  | file, [], state, actC => (file, state, actC)
  | file, [x], state, actC => (file, if actC ≠ toChar x then .c else state, actC)
  | file, x :: y :: str, state, actC =>
    compareChars (fgetc file).2 (y :: str) (if actC ≠ toChar x then .c else state) (fgetc file).1

/-- `compare`: the characters of `str` from the second to the one at `len`. The last of them is
`*act_c` in the end: a newline that does not belong there is consumed all the same. -/
def compare (file str : List Byte) (len : ℕ) (state : FmState) (actC : Option Byte) :
    List Byte × FmState × Option Byte :=
  compareChars file ((str.drop 1).take len) state actC

/-! ## Values -/

/-- The terminator is stored, if there is room for it. -/
def endValue (value : List Byte) (allocated : ℕ) (file : List Byte) :
    Except Halt (List Byte × List Byte) :=
  if value.length < allocated + 1 then .ok (value, file) else .error .crash

/-- The loop of `file_read_value`; the buffer has `allocated + 1` bytes. -/
def readValueLoop : List Byte → List Byte → ℕ → Except Halt (List Byte × List Byte)
  | [], value, allocated => endValue value allocated []
  | b :: file, value, allocated =>
    if toChar b = none ∨ b = newline then endValue value allocated file
    else
      let allocated := if value.length = allocated then allocated + 5 else allocated
      if value.length < allocated + 1 then readValueLoop file (value ++ [b]) allocated
      else .error .crash

/-- `file_read_value`: the value up to its terminator, and the rest of the file. -/
def fileReadValue (file : List Byte) (maxLength : ℕ) : Except Halt (List Byte × List Byte) := do
  let (value, file) ← readValueLoop file [] 5
  if maxLength ≤ value.length ∧ maxLength ≠ 0 then return (value.take (maxLength - 1), file)
  else return (value, file)

/-- `isspace` -/
def isSpace (b : Byte) : Bool := b = 32 ∨ 9 ≤ b ∧ b ≤ 13

/-- The digits `strtol` goes on with, after the value `n`. -/
def digitsValue : ℤ → List Byte → ℤ
  | n, [] => n
  | n, b :: s => if 48 ≤ b ∧ b ≤ 57 then digitsValue (10 * n + (b.toNat - 48)) s else n

/-- `strtol`, base 10. It is called on four characters at most, so the ends of `long` are out
of reach. -/
def strtol (s : List Byte) : ℤ :=
  match s.dropWhile isSpace with
  | 43 :: s => digitsValue 0 s
  | 45 :: s => -digitsValue 0 s
  | s => digitsValue 0 s

/-! ## Reading -/

/-- The settings parsed so far: `address_parsed`, `client_id_parsed`, `comm_port_parsed` say
which of them there are. -/
structure CfgParsed where
  address : Option (List Byte)
  clientId : Option (List Byte)
  commPort : Option ℤ
  deriving DecidableEq, Repr

/-- A line that started like the setting `str`. -/
def readSetting (str : List Byte) (len maxLength : ℕ) (store : List Byte → CfgParsed → CfgParsed)
    (state : FmState) (actC : Option Byte) (file : List Byte) (r : CfgParsed) :
    Except Halt (FmState × Option Byte × List Byte × CfgParsed) :=
  match compare file str len state actC with
  | (file, state', actC) =>
    if state' = state then do
      let (value, file) ← fileReadValue file maxLength
      return (.e, actC, file, store value r)
    else return (state', actC, file, r)

def setAddress (value : List Byte) (r : CfgParsed) : CfgParsed := { r with address := some value }

def setClientId (value : List Byte) (r : CfgParsed) : CfgParsed := { r with clientId := some value }

def setCommPort (value : List Byte) (r : CfgParsed) : CfgParsed :=
  { r with commPort := some (strtol value) }

/-- The state after the first character of a line. -/
def lineState (actC : Option Byte) : FmState :=
  if actC = toChar 35 ∨ actC = toChar 91 then .c -- `#` and `[`
  else if actC = toChar 97 then .a
  else if actC = toChar 115 then .s
  else if actC = toChar 112 then .p
  else if actC = toChar 105 then .i
  else .c

/-- The `switch` of `read_cfg`. -/
def readTurn (state : FmState) (actC : Option Byte) (file : List Byte) (r : CfgParsed) :
    Except Halt (FmState × Option Byte × List Byte × CfgParsed) :=
  match state with
  | .e => .ok (lineState actC, actC, file, r)
  | .c => .ok (if actC = toChar newline then .e else .c, actC, file, r)
  | .a => readSetting (text ['a', 'd', 'd', 'r', 'e', 's', 's', '=']) 7 0 setAddress .a actC file r
  | .s => readSetting (text ['s', 'e', 'r', 'v', 'e', 'r', '=']) 6 0 setAddress .s actC file r
  | .p => readSetting (text ['p', 'o', 'r', 't', '=']) 4 5 setCommPort .p actC file r
  | .i => readSetting (text ['i', 'd', '=']) 2 0 setClientId .i actC file r
  | .v => .ok (.v, actC, file, r)

/-- The loop of `read_cfg`, within `n` turns. -/
def readLoop : ℕ → FmState → List Byte → CfgParsed → Except Halt CfgParsed
  | 0, _, _, _ => .error .fuel
  | n + 1, state, file, r => do
    let (state, actC, file, r) ← readTurn state (fgetc file).1 (fgetc file).2 r
    if actC = none then return r else readLoop n state file r

/-- What `read_cfg` is given to fill. -/
structure CfgOut where
  clientId : Ptr (List Byte)
  address : Ptr (List Byte)
  commPort : ℤ
  deriving DecidableEq, Repr

/-- `127.0.0.1` -/
def defaultAddress : List Byte := text ['1', '2', '7', '.', '0', '.', '0', '.', '1']

def defaultPort : ℤ := 2345

/-- The values at the end of `read_cfg`. -/
def CfgParsed.out (r : CfgParsed) : CfgOut where
  clientId := .of r.clientId
  address := .good (r.address.getD defaultAddress)
  commPort := r.commPort.getD defaultPort

/-- `read_cfg`, on what `fopen` finds. Every turn reads a character, so one more turn than
there are characters is enough. -/
def readCfg (cfg : Option (List Byte)) (out : CfgOut) : Except Halt (ℤ × CfgOut) :=
  match cfg with
  | none => .ok (1, { out with address := .good defaultAddress, commPort := defaultPort })
  | some file => do
    let r ← readLoop (file.length + 1) .e file ⟨none, none, none⟩
    return (0, r.out)

/-- The state after the first character of a line, in `read_srv_cfg`. -/
def srvLineState (actC : Option Byte) : FmState :=
  if actC = toChar 35 then .c -- `#`
  else if actC = toChar 112 then .p
  else .c

/-- The `switch` of `read_srv_cfg`. -/
def readSrvTurn (state : FmState) (actC : Option Byte) (file : List Byte) (r : CfgParsed) :
    Except Halt (FmState × Option Byte × List Byte × CfgParsed) :=
  match state with
  | .e => .ok (srvLineState actC, actC, file, r)
  | .c => .ok (if actC = toChar newline then .e else .c, actC, file, r)
  | .p => readSetting (text ['p', 'o', 'r', 't', '=']) 4 5 setCommPort .p actC file r
  | state => .ok (state, actC, file, r)

/-- The loop of `read_srv_cfg`, within `n` turns. -/
def readSrvLoop : ℕ → FmState → List Byte → CfgParsed → Except Halt CfgParsed
  | 0, _, _, _ => .error .fuel
  | n + 1, state, file, r => do
    let (state, actC, file, r) ← readSrvTurn state (fgetc file).1 (fgetc file).2 r
    if actC = none then return r else readSrvLoop n state file r

/-- `read_srv_cfg`, on what `fopen` finds: its value and `*ret_comm_port`. -/
def readSrvCfg (cfg : Option (List Byte)) : Except Halt (ℤ × ℤ) :=
  match cfg with
  | none => .ok (1, defaultPort)
  | some file => do
    let r ← readSrvLoop (file.length + 1) .e file ⟨none, none, none⟩
    return (0, r.commPort.getD defaultPort)

/-! ## Writing -/

/-- The `switch` of `write_to_cfg` on a file of `size` bytes; `position` is set if
`already_exists` is. -/
def writeTurn (name : List Byte) (size : ℕ) (state : FmState) (actC : Option Byte)
    (file : List Byte) (position : Option ℕ) : FmState × Option Byte × List Byte × Option ℕ :=
  match state with
  | .e => (if actC = toChar (name.headD 0) then .v else .c, actC, file, position)
  | .c => (if actC = toChar newline then .e else .c, actC, file, position)
  | .v =>
    let (file, state, _) := compare file name (name.length - 1) .v actC
    let (actC, file) := fgetc file
    if actC ≠ toChar equals then (.c, actC, file, position)
    else if state = .v then (.e, actC, file, some (size - file.length))
    else (state, actC, file, position)
  | state => (state, actC, file, position)

/-- The loop of `write_to_cfg`, within `n` turns. -/
def writeLoop (name : List Byte) (size : ℕ) : ℕ → FmState → List Byte → Option ℕ →
    Except Halt (Option ℕ)
  | 0, _, _, _ => .error .fuel
  | n + 1, state, file, position =>
    match writeTurn name size state (fgetc file).1 (fgetc file).2 position with
    | (state, actC, file, position) =>
      if actC = none then .ok position else writeLoop name size n state file position

/-- The files `write_to_cfg` names: `CFG_FILE`, `../etc/rds-client.conf.tmp` and
`../etc/ssds-client.conf.tmp`. -/
structure CfgFiles where
  cfg : Option (List Byte)
  rdsTmp : Option (List Byte)
  ssdsTmp : Option (List Byte)
  deriving DecidableEq, Repr

/-- What becomes of the calls on them: whether the two files are opened, the old one removed
and the new one renamed, and what of the bytes written to a stream is in the file in the end. -/
structure CfgIo where
  openCfg : Bool
  openNew : Bool
  remove : Bool
  rename : Bool
  stored : List Byte → List Byte

/-- The clone of a file with another value from `position` on. -/
def cloneCfg (file : List Byte) (position : ℕ) (value : List Byte) : List Byte :=
  file.take position ++ value ++
    -- the line is skipped up to its newline, which is the first character that is copied
    ((file.drop position).dropWhile fun b => b ≠ newline ∧ b ≠ 255).takeWhile fun b => b ≠ 255

/-- `write_to_cfg`. The clone is written to one file and another one is renamed. -/
def writeToCfg (io : CfgIo) (files : CfgFiles) (name value : List Byte) :
    Except Halt (ℤ × CfgFiles) :=
  match files.cfg with
  | none => .ok (1, files)
  | some file =>
    if !io.openCfg then .ok (1, files)
    else do
      match ← writeLoop (cstr name) file.length (file.length + 1) .e file none with
      | some position =>
        if !io.openNew then .error .crash -- `fwrite` to `NULL`
        else
          let files := { files with rdsTmp := some (io.stored (cloneCfg file position (cstr value))) }
          if !io.remove then return (1, files)
          else
            match files.ssdsTmp with
            | some tmp =>
              if io.rename then return (0, { files with cfg := some tmp, ssdsTmp := none })
              else return (1, { files with cfg := none })
            | none => return (1, { files with cfg := none })
      | none =>
        let line := cstr name ++ equals :: cstr value ++ [newline]
        return (0, { files with cfg := some (file ++ io.stored line) })

end Rds
