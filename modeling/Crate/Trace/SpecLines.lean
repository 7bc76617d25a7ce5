import Crate.Trace.Render

/-!
# The lines of a specification draft

The draft is meant as a list of lines: the generator's own keys, list items and
map entries whose values are scalars, and comments.  The text is these lines,
each with a line feed behind it.
-/

namespace Crate.TracePure

open Crate.Foundation
open Crate.Foundation.Yaml

/-! ## Lines -/

/-- The lines without a value. -/
inductive Key
  | blank
  | document
  | pkg
  | install
  | run
  | dirs
  | files
  | share
  | options
  | net
  | inboundTcp
  | inboundUdp
  | entry (option : PlainOption)
  | listed (option : PlainOption)
  | dbus
  | system
  | session
  | devices
  | sound
  | input
  | usb

def Key.text : Key → Str
  | .blank => []
  | .document => "---"
  | .pkg => "pkg:"
  | .install => "    install:"
  | .run => "run:"
  | .dirs => "dirs:"
  | .files => "files:"
  | .share => "    share:"
  | .options => "options:"
  | .net => "    net:"
  | .inboundTcp => "        inbound-tcp:"
  | .inboundUdp => "        inbound-udp:"
  | .entry option => optionLine option
  | .listed option => optionItem option
  | .dbus => "dbus:"
  | .system => "    system: true"
  | .session => "    session: true"
  | .devices => "devices:"
  | .sound => "    sound: true"
  | .input => inputOption
  | .usb => "    usb: true     # every USB device of the host"

/-- What a comment begins with. -/
inductive Lead
  | rule
  | generated
  | command
  | review
  | touched
  | alsoRead
  | packages
  | state
  | policy
  | seen
  | notes
  | note

def Lead.text : Lead → Str
  | .rule => "##"
  | .generated => "## generated by crate profile-from-trace (crate "
  | .command => "## from one run of:"
  | .review => "## Review before use: the shares and packages below are what the program"
  | .touched => "## TOUCHED during that run, not what it needs. Drop what is not wanted."
  | .alsoRead =>
      "    # also read from these packages (dependencies, usually pulled in automatically):"
  | .packages => "    #  "
  | .state => "        # application state (profile, config, data); remove to keep it per container"
  | .policy =>
      "    # add policy/allow_own and policy/deny_send for the services this program talks to"
  | .seen => "# outbound destinations seen:"
  | .notes => "# notes:"
  | .note => "#   - "

inductive Line
  | key (k : Key)
  | comment (lead : Lead) (rest : Str)
  | outbound (classes : List HostClass)
  | item (value : Str)
  | command (value : Str)
  | share (value : Str)
  | port (p : Nat)

def Line.text : Line → Str
  | .key k => k.text
  | .comment lead rest => lead.text ++ rest
  | .outbound classes => outboundText classes
  | .item value => itemLine value
  | .command value => commandLine value
  | .share value => shareLine value
  | .port p => portLine p

def linesWhen (shown : Bool) (lines : List Line) : List Line := if shown then lines else []

def headerLines (g : Generated) (crateVersion : Str) : List Line :=
  ([.comment .rule [], .comment .generated (crateVersion ++ ")")] : List Line) ++
    linesWhen (!g.command.isEmpty) [.comment .command (spaced g.command)] ++
    ([.comment .review [], .comment .touched [], .comment .rule [], .key .blank, .key .document] :
      List Line)

end Crate.TracePure
