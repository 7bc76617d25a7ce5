import Crate.Foundation.CNumber
import Crate.Foundation.OrdMap

/-!
# The audit probe

`lib/jail_audit_pure.cpp`: the script that `crate audit` runs inside a jail, the
text that a run of it prints, and the split of that text into sections.  The
sections are framed by marker lines in the same stream as the output of the
commands.
-/

namespace Crate.JailAuditPure

open Crate.Foundation

/-! ## The script -/

inductive Section where
  | id | sysctl | mount | ifconfig | routes | dev | sockets | fssockets | ps | resolv | gw
  | connect | dns
  deriving DecidableEq, Repr

def Section.name : Section → Str
  | .id => "id"
  | .sysctl => "sysctl"
  | .mount => "mount"
  | .ifconfig => "ifconfig"
  | .routes => "routes"
  | .dev => "dev"
  | .sockets => "sockets"
  | .fssockets => "fssockets"
  | .ps => "ps"
  | .resolv => "resolv"
  | .gw => "gw"
  | .connect => "connect"
  | .dns => "dns"

/-- With `offline` the two active probes are left out. -/
def probeSections (offline : Bool) : List Section :=
  [.id, .sysctl, .mount, .ifconfig, .routes, .dev, .sockets, .fssockets, .ps, .resolv, .gw] ++
    if offline then [] else [.connect, .dns]

inductive Command where
  | id | sysctl | mount | ifconfig | netstatInet | netstatInet6 | ls | sockstat | find | ps | cat
  | gateway | nc | drill
  deriving DecidableEq, Repr

def Command.text (dnsName : Str) : Command → Str
  | .id => "id 2>&1"
  | .sysctl =>
      "sysctl -e kern.securelevel kern.hostname kern.hostid kern.hostuuid " ++
        "kern.osrelease security.jail 2>/dev/null"
  | .mount => "mount -p 2>&1"
  | .ifconfig => "ifconfig -a 2>&1"
  | .netstatInet => "netstat -rn -f inet 2>/dev/null"
  | .netstatInet6 => "netstat -rn -f inet6 2>/dev/null"
  | .ls => "ls -1 /dev 2>&1"
  | .sockstat => "sockstat -l 2>&1"
  | .find => "find /tmp /var/run /var/tmp -maxdepth 3 -type s 2>/dev/null"
  | .ps => "ps -axo user=,pid=,ucomm= 2>&1"
  | .cat => "cat /etc/resolv.conf 2>/dev/null"
  | .gateway =>
      "netstat -rn -f inet 2>/dev/null | awk '$1==\"default\"\x7bprint $2; exit\x7d'"
  | .nc => "nc -z -w 3 \"$gw\" 22 2>&1"
  | .drill => "drill -Q A '" ++ dnsName ++ "' 2>&1"

def Section.commands : Section → List Command
  | .id => [.id]
  | .sysctl => [.sysctl]
  | .mount => [.mount]
  | .ifconfig => [.ifconfig]
  | .routes => [.netstatInet, .netstatInet6]
  | .dev => [.ls]
  | .sockets => [.sockstat]
  | .fssockets => [.find]
  | .ps => [.ps]
  | .resolv => [.cat]
  | .gw => [.gateway]
  | .connect => [.nc]
  | .dns => [.drill]

/-- The lines of the script that print a section. -/
def Section.script (dnsName : Str) (s : Section) : Str :=
  let commands := ("; " : Str).intercalate (s.commands.map (Command.text dnsName))
  match s with
  | .gw => ("gw=$(" : Str) ++ commands ++ ")\n" ++ "echo \"@@gw $gw\"\n"
  | .connect =>
      ("case \"$gw\" in\n" : Str) ++
        "  ''|*[!0-9.]*) echo @@connect; echo @@rc=255 ;;\n" ++
        "  *) echo @@connect; " ++ commands ++ "; echo \"@@rc=$?\" ;;\n" ++
        "esac\n"
  | .dns => ("echo @@dns; " : Str) ++ commands ++ "; echo \"@@rc=$?\"\n"
  | s => ("echo @@" : Str) ++ s.name ++ "; " ++ commands ++ "\n"

/-- `dnsName` stands in quotes; its characters are checked where it is read. -/
def probeScript (offline : Bool) (dnsName : Str) : Str :=
  ("PATH=/sbin:/bin:/usr/sbin:/usr/bin; export PATH\n" : Str) ++
    (probeSections offline).flatMap (Section.script dnsName)

/-! ## What a run prints -/

/-- What the commands print in one run, and the exit codes the script echoes. -/
structure Run where
  output : Command → Str
  ncStatus : UInt8
  drillStatus : UInt8

/-- `$(...)`: the shell drops zero bytes and the line ends at the end. -/
def substitution (text : Str) : Str := (text.filter (· ≠ '\x00')).rdropWhile (· = '\n')

namespace Run

variable (run : Run)

/-- The shell variable `gw`. -/
def gw : Str := substitution (run.output .gateway)

/-- The second branch of the `case`: nothing but digits and dots. -/
def gwIsAddress : Bool := run.gw ≠ [] && run.gw.all fun c => isDecimalDigit c || c = '.'

/-- What the commands of a section print in the run; `nc` runs for an address only. -/
def printed : Section → Str
  | .gw => run.gw
  | .connect => if run.gwIsAddress then run.output .nc else []
  | s => s.commands.flatMap run.output

/-- The exit code that is echoed behind a section. -/
def status : Section → Option Nat
  | .connect => some (if run.gwIsAddress then run.ncStatus.toNat else 255)
  | .dns => some run.drillStatus.toNat
  | _ => none

def statusText (s : Section) : Str :=
  match run.status s with
  | none => []
  | some rc => ("@@rc=" : Str) ++ decimal rc ++ "\n"

def sectionOutput : Section → Str
  | .gw => ("@@gw " : Str) ++ run.printed .gw ++ "\n"
  | s => ("@@" : Str) ++ s.name ++ "\n" ++ run.printed s ++ run.statusText s

/-- The standard output of the script. -/
def probeOutput (offline : Bool) : Str := (probeSections offline).flatMap run.sectionOutput

end Run

/-! ## Reading it -/

def trim (s : Str) : Str := (s.dropWhile isSpace).rdropWhile isSpace

def startsWith (s p : Str) : Bool := p.isPrefixOf s

/-- The loop of `lines`; `cur` is the line so far.  Carriage returns are dropped. -/
def linesLoop : Str → Str → List Str
  | cur, [] => if cur = [] then [] else [cur]
  | cur, c :: rest =>
      if c = '\n' then cur :: linesLoop [] rest
      else if c = '\r' then linesLoop cur rest
      else linesLoop (cur ++ [c]) rest

def lines (text : Str) : List Str := linesLoop [] text

abbrev Sections := OrdMap Str Str

/-- `sections[key] += text`. -/
def appendTo (sections : Sections) (key text : Str) : Sections :=
  sections.insert key ((sections.find? key).getD [] ++ text)

def argText (arg : Str) : Str := if arg = [] then [] else arg ++ "\n"

/-- One line, with the sections so far and the current one. -/
def splitLine (state : Sections × Str) (raw : Str) : Sections × Str :=
  let (sections, cur) := state
  if startsWith raw "@@" then
    let marker := trim (raw.drop 2)
    if startsWith marker "rc=" then
      if cur ≠ [] then (sections.insert (cur ++ ".rc") (trim (marker.drop 3)), cur) else state
    else
      let name := marker.takeWhile (· ≠ ' ')
      let arg := trim (marker.dropWhile (· ≠ ' ')).tail
      if name = [] then state else (sections.insert name (argText arg), name)
  else if cur ≠ [] then (appendTo sections cur (raw ++ "\n"), cur)
  else state

def splitSections (out : Str) : Sections := ((lines out).foldl splitLine (.empty, [])).1

end Crate.JailAuditPure
