import SingleWriter.Error.Write
import SingleWriter.Json.Fault

/-! Errors of a store. -/

namespace SingleWriter

inductive StoreError where
  | invalidConfig (message : String)
  | configParse (fault : Json.Fault)
  | connection (e : ConnectionError)
  | write (e : WriteError)
  | io (e : IoError)

namespace StoreError

def message : StoreError → String
  | invalidConfig m => "invalid store config: " ++ m
  | configParse fault => "failed to parse store config: " ++ fault.message
  | connection e => e.message
  | write e => e.message
  | io e => "io error: " ++ e.message

def code : StoreError → String
  | invalidConfig _ => "INVALID_CONFIG"
  | configParse _ => "CONFIG_PARSE_ERROR"
  | connection e => e.code
  | write e => e.code
  | io _ => "IO_ERROR"

def pathRequired : StoreError := invalidConfig "path is required"

end StoreError

end SingleWriter
