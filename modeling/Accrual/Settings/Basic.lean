/-!
# Settings

What can be configured: whether debugging is on, how log records are written and from which level
on, and how failed validations are reported and rendered.
-/

namespace Accrual

inductive LevelName
  | debug
  | info
  | warning
  | error
  | critical
  deriving DecidableEq

namespace LevelName

def all : List LevelName := [debug, info, warning, error, critical]

def text : LevelName → String
  | debug => "DEBUG"
  | info => "INFO"
  | warning => "WARNING"
  | error => "ERROR"
  | critical => "CRITICAL"

def number : LevelName → Int
  | debug => 10
  | info => 20
  | warning => 30
  | error => 40
  | critical => 50

end LevelName

inductive LogFormat
  | console
  | json
  | silent
  deriving DecidableEq

namespace LogFormat

def all : List LogFormat := [console, json, silent]

def text : LogFormat → String
  | console => "console"
  | json => "json"
  | silent => "none"

def ofText? (s : String) : Option LogFormat := all.find? (fun format => format.text == s)

end LogFormat

structure LoggingSettings where
  level : LevelName := .info
  format : LogFormat := .console
  /-- Without a choice of its own, colour is used on a terminal only. -/
  colors : Option Bool := none
  deriving DecidableEq

structure ReportSettings where
  level : LevelName := .warning
  separator : String := "\n"
  bullet : String := "- "
  deriving DecidableEq

structure Settings where
  /-- Lowers the log level to debug, so that reports of successes are logged too. -/
  debug : Bool := false
  logging : LoggingSettings := {}
  report : ReportSettings := {}
  deriving DecidableEq

/-- The level that logging starts with: debug in debug mode, else the configured one. -/
def Settings.logLevel (settings : Settings) : LevelName :=
  if settings.debug then .debug else settings.logging.level

end Accrual
