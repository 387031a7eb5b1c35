import MusicbrainzIngestion.Base.JsonRecord
import MusicbrainzIngestion.Types

/-! The log lines: one JSON object for each event, with the keys of the shared schema at the
root and the fields of the event beside them. A field whose name the schema has for itself goes
under `fields`, so that no event can pass for another. -/

namespace MusicbrainzIngestion
open Base Base.Json

namespace Logging

/-! ## Events -/

inductive Level where
  | error
  | warn
  | info
  | debug
  | trace

/-- A field as it is recorded. A float comes with its JSON form, if it has one. -/
inductive FieldValue where
  | debug (text : String)
  | str (value : String)
  | i64 (value : Int64)
  | u64 (value : UInt64)
  | bool (value : Bool)
  | f64 (json : Option String) (text : String)
  | error (text : String)

/-- The fields are in the order in which they are visited. -/
structure Event where
  level : Level
  target : String
  line : Option UInt32
  fields : List (String × FieldValue)

def RESERVED : List String :=
  ["timestamp", "level", "logger", "lineno", "event", "service", "environment", "span", "spans",
    "fields"]

structure EnvironmentJson where
  environment : String

def EnvironmentJson.new (environment : Option String) : EnvironmentJson :=
  ⟨environment.getD "development"⟩

def FieldValue.toValue : FieldValue → Value
  | .debug text | .str text | .error text => .string text
  | .i64 n => .number (.ofI64 n)
  | .u64 n => .number (.posInt n)
  | .bool b => .bool b
  | .f64 (some json) _ => .number (.float json)
  | .f64 none text => .string text

/-! ## Collecting the fields -/

structure Collect where
  message : Option String := none
  root : Entries := []
  displaced : Entries := []

variable (serialize : Value → String)

def messageText : Value → String
  | .string text => text
  | other => serialize other

def Collect.put (c : Collect) (name : String) (value : Value) : Collect :=
  if name = "message" then { c with message := some (messageText serialize value) }
  else if name ∈ RESERVED then { c with displaced := c.displaced.insert name value }
  else { c with root := c.root.insert name value }

def collect (fields : List (String × FieldValue)) : Collect :=
  fields.foldl (fun c field => c.put serialize field.1 field.2.toValue) {}

/-! ## The line -/

def insertAll (es : Entries) (object : Entries) : Entries :=
  es.foldl (fun object e => object.insert e.1 e.2) object

variable {serialize}

/-- What was recorded under the name, in order. -/
def recorded (fields : List (String × FieldValue)) (name : String) : List Value :=
  Entries.occurrences name (fields.map fun field => (field.1, field.2.toValue))

variable (config : EnvironmentJson) (time : String) (event : Event) (scope : List Span)

/-- Where a reader of the line looks for a field. -/
def field (line : Entries) (name : String) : Option Value :=
  if name ∈ RESERVED then (line.get "fields").bind (·.get name) else line.get name

end Logging

open Logging

end MusicbrainzIngestion
