/-! Lines of output: printed ones, and log records. Characters that could command a terminal are not
shown as such in the message of a record. -/

namespace ReleaseTracker.Cli

inductive Level where
  | error
  | warn
  | info
  | debug
  | trace
deriving DecidableEq, Repr

namespace Level

def name : Level → String
  | .error => "ERROR"
  | .warn => "WARN"
  | .info => "INFO"
  | .debug => "DEBUG"
  | .trace => "TRACE"

def rank : Level → Nat
  | .error => 1
  | .warn => 2
  | .info => 3
  | .debug => 4
  | .trace => 5

end Level

structure LogRecord where
  level : Level
  origin : String
  message : String
  fields : List (String × String)
deriving DecidableEq, Repr

namespace LogRecord

def shownChar (c : Char) : List Char :=
  let n := c.toNat
  if c = '\x07' then "\\x07".toList
  else if c = '\x08' then "\\x08".toList
  else if c = '\x0c' then "\\x0c".toList
  else if c = '\x1b' then "\\x1b".toList
  else if c = '\x7f' then "\\x7f".toList
  else if 0x80 ≤ n ∧ n ≤ 0x9F then "\\u\x7b".toList ++ Nat.toDigits 16 n ++ ['\x7d']
  else [c]

def text (r : LogRecord) : String :=
  r.level.name ++ " " ++ String.ofList (r.message.toList.flatMap shownChar) ++
    String.join (r.fields.map fun (name, value) => " " ++ name ++ "=" ++ value)

def hasField (r : LogRecord) (name : List Char) : Bool :=
  name == "message".toList || r.fields.any (·.1.toList == name)

end LogRecord

inductive Line where
  | printed (text : String)
  | logged (record : LogRecord)
deriving DecidableEq, Repr

end ReleaseTracker.Cli
