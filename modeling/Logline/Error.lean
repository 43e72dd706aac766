import Logline.Hook
/-!
# Errors

What can go wrong outside a log call: configuration, opening and flushing destinations. A log call itself
reports none of these; it counts them.

Behind some errors there is one of the system, and a user's own error may be in its place. Then showing the
error and throwing it away run the user's code.
-/

namespace Logline

/-- The error of the system behind an error, or a user's own in its place. -/
structure SystemError where
  shown : ShowHook
  /-- The panic that throwing the error away ends in, if it does. -/
  disposal : Option Panic := none
  deriving DecidableEq, Repr

/-- An error of the system with a text. -/
def SystemError.plain (text : String) : SystemError := { shown := { text } }

/-- An error of a configuration or destination operation. -/
inductive LogError where
  /-- The operation `operation` failed, because of `cause`. -/
  | failedOperation (operation message : String) (cause : SystemError)
  /-- A plain input or output error. -/
  | inputOutput (cause : SystemError)
  | invalidSeverity (value : String)
  | unknownFlag (name : String)
  | invalidConfiguration (component message : String)
  | fileAppender (path message : String)
  | fileLock (path : String)
  | writer (message : String)
  deriving DecidableEq, Repr

namespace LogError

/-- The text of an error, as far as it is shown. -/
def message : LogError → String
  | .failedOperation operation message _ => "IO error while " ++ operation ++ ": " ++ message
  | .inputOutput cause => "IO error: " ++ cause.shown.text
  | .invalidSeverity value =>
    "Invalid severity '" ++ value ++ "': expected one of INFO, WARNING, ERROR, FATAL"
  | .unknownFlag name => "Unknown configuration flag '" ++ name ++ "'"
  | .invalidConfiguration component message =>
    "Invalid configuration for " ++ component ++ ": " ++ message
  | .fileAppender path message => "File appender error for '" ++ path ++ "': " ++ message
  | .fileLock path => "Failed to acquire file lock on '" ++ path ++ "'"
  | .writer message => "Writer error: " ++ message

/-- The error of the system behind an error, if there is one. -/
def source? : LogError → Option SystemError
  | .failedOperation _ _ cause => some cause
  | .inputOutput cause => some cause
  | _ => none

/-- How showing an error ends. Only a plain input or output error asks the error behind it for its text. -/
def ending : LogError → Ending
  | .inputOutput cause => cause.shown.ending
  | _ => .returns

/-- How an error is shown. -/
def shown (e : LogError) : ShowHook := { text := e.message, ending := e.ending }

/-- The panic that throwing an error away ends in, if it does. -/
def disposal (e : LogError) : Option Panic := e.source?.bind SystemError.disposal

end LogError

end Logline
