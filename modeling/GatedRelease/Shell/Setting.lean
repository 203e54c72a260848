/-! Settings of a shell, each of which is on or off. Most have a letter beside their name. -/
namespace GatedRelease.Shell

/-- Something about a shell that can be turned on. -/
inductive Setting
  /-- A failing command ends the program. -/
  | errexit
  /-- Words stand for themselves, not for the files whose names they fit. -/
  | noglob
  | ignoreeof
  | interactive
  | monitor
  /-- Commands are read and not carried out. -/
  | noexec
  /-- The program is the input. -/
  | stdin
  /-- Commands are shown before they are carried out. -/
  | xtrace
  /-- Lines are shown as they are read. -/
  | verbose
  | vi
  | emacs
  /-- Output does not go to files that are there already. -/
  | noclobber
  /-- Every variable that gets a value is handed to other programs. -/
  | allexport
  | notify
  /-- A parameter without a value may not be used. -/
  | nounset
  | privileged
  | nolog
  | debug
deriving DecidableEq

namespace Setting

/-- All settings, in the order in which they are shown. -/
def all : List Setting := [errexit, noglob, ignoreeof, interactive, monitor, noexec, stdin, xtrace,
  verbose, vi, emacs, noclobber, allexport, notify, nounset, privileged, nolog, debug]

/-- The name of a setting. -/
def name : Setting → String
  | errexit => "errexit"
  | noglob => "noglob"
  | ignoreeof => "ignoreeof"
  | interactive => "interactive"
  | monitor => "monitor"
  | noexec => "noexec"
  | stdin => "stdin"
  | xtrace => "xtrace"
  | verbose => "verbose"
  | vi => "vi"
  | emacs => "emacs"
  | noclobber => "noclobber"
  | allexport => "allexport"
  | notify => "notify"
  | nounset => "nounset"
  | privileged => "privileged"
  | nolog => "nolog"
  | debug => "debug"

/-- The letter of a setting. -/
def letter? : Setting → Option Char
  | errexit => some 'e'
  | noglob => some 'f'
  | ignoreeof => some 'I'
  | interactive => some 'i'
  | monitor => some 'm'
  | noexec => some 'n'
  | stdin => some 's'
  | xtrace => some 'x'
  | verbose => some 'v'
  | vi => some 'V'
  | emacs => some 'E'
  | noclobber => some 'C'
  | allexport => some 'a'
  | notify => some 'b'
  | nounset => some 'u'
  | privileged => some 'p'
  | nolog | debug => none

/-- The setting with a letter. -/
def ofLetter? (c : Char) : Option Setting := all.find? fun s => s.letter? == some c

/-- The setting with a name. -/
def ofName? (n : String) : Option Setting := all.find? fun s => s.name == n

/-- The settings after one is turned on or off. The two ways to edit lines exclude each other. -/
def turn (on : Bool) (s : Setting) (settings : List Setting) : List Setting :=
  let others := settings.filter fun t =>
    t != s && !(on && s = .vi && t = .emacs) && !(on && s = .emacs && t = .vi)
  if on then s :: others else others

/-- The letters of settings that are on. -/
def letters (settings : List Setting) : String :=
  String.ofList ((all.reverse.filter settings.contains).filterMap letter?)

/-- How settings are shown, or, with `asCommands`, the commands that set them. -/
def listing (asCommands : Bool) (settings : List Setting) : List String :=
  if asCommands then
    all.map fun s =>
      let sign := if settings.contains s then "-o" else "+o"
      s!"set {sign} {s.name}"
  else "Current option settings" :: all.map fun s =>
    let blanks := "".pushn ' ' (16 - s.name.length)
    let state := if settings.contains s then "on" else "off"
    s!"{s.name}{blanks}{state}"

end Setting
end GatedRelease.Shell
