/-!
# Errors

Every refusal is a value that says why; `message` gives its wording. `Error` belongs to program
loading and to the control plane, `PipelineError` to building a pipeline and to processing a frame.
What goes wrong with a single packet (a failed parse, a table miss) is no error: it shows in the
packet's metadata or in fewer output frames.
-/

namespace Switchyard

/-- Why a program description is no program. -/
inductive Defect where
  | duplicateHeader (name : String)
  | duplicateField (name : String)
  | fieldWidth (name : String) (bits : Nat)
  | unknownState (name : String)
  | duplicateTable (name : String)
  deriving DecidableEq

def Defect.message : Defect → String
  | duplicateHeader name => s!"header `{name}` declared twice"
  | duplicateField name => s!"field `{name}` declared twice"
  | fieldWidth name bits => s!"field `{name}` has unsupported width {bits}"
  | unknownState name => s!"unknown parser state `{name}`"
  | duplicateTable name => s!"table `{name}` declared twice"

/-- Why a literal has no value. The form that was tried follows from the text. -/
inductive LiteralFault where
  | ipv6 (text : String)
  | ipv4 (text : String)
  | hex (text : String)
  | decimal (text : String)
  deriving DecidableEq

def LiteralFault.message : LiteralFault → String
  | ipv6 text => s!"`{text}` is not a valid IPv6 address"
  | ipv4 text => s!"`{text}` is not a valid IPv4 address"
  | hex text => s!"`{text}` is not valid hex"
  | decimal text => s!"`{text}` is not a valid value"

/-- The commands of the control plane, by their first word. -/
inductive Verb where
  | tableAdd
  | tableDelete
  | tableModify
  | tableSetDefault
  | tableClear
  | groupCreate
  | groupDestroy
  | nodeCreate
  | nodeUpdate
  | nodeDestroy
  | nodeAssociate
  | nodeDissociate
  deriving DecidableEq

/-- The first word of each command. -/
def Verb.word : Verb → String
  | tableAdd => "table_add"
  | tableDelete => "table_delete"
  | tableModify => "table_modify"
  | tableSetDefault => "table_set_default"
  | tableClear => "table_clear"
  | groupCreate => "mc_mgrp_create"
  | groupDestroy => "mc_mgrp_destroy"
  | nodeCreate => "mc_node_create"
  | nodeUpdate => "mc_node_update"
  | nodeDestroy => "mc_node_destroy"
  | nodeAssociate => "mc_node_associate"
  | nodeDissociate => "mc_node_dissociate"

/-- What is said of a command whose words do not fit its form. -/
def Verb.usage : Verb → String
  | tableAdd => "usage: table_add <table> <action> <key...> => <arg...>"
  | tableDelete => "usage: table_delete <table> <handle>"
  | tableModify => "usage: table_modify <table> <action> <handle> <arg...>"
  | tableSetDefault => "usage: table_set_default <table> <action> <arg...>"
  | tableClear => "usage: table_clear <table>"
  | groupCreate | groupDestroy => "expected a multicast group id"
  | nodeCreate => "usage: mc_node_create <rid> <port...>"
  | nodeUpdate => "usage: mc_node_update <handle> <port...>"
  | nodeDestroy => "usage: mc_node_destroy <handle>"
  | nodeAssociate | nodeDissociate => "expected <mgid> <node handle>"

/-- Why a line is no command. -/
inductive CommandFault where
  | empty
  | unknownCommand
  | usage (verb : Verb)
  | number (text : String)
  | literal (fault : LiteralFault)
  | prefixLength (text : String)
  | ridTooWide
  | notASwitch (node : Nat)
  deriving DecidableEq

def CommandFault.message : CommandFault → String
  | empty => "empty command"
  | unknownCommand => "unknown command"
  | usage verb => verb.usage
  | number text => s!"`{text}` is not a valid number"
  | literal fault => fault.message
  | prefixLength text => s!"`{text}` is not a valid prefix length"
  | ridTooWide => "rid does not fit 16 bits"
  | notASwitch node => s!"node NodeId({node}) is not a P4 switch"

/-- Why a key does not fit its table. -/
inductive KeyFault where
  | prefixExpected
  | prefixUnexpected
  | prefixTooLong (length width : Nat)
  deriving DecidableEq

def KeyFault.message : KeyFault → String
  | prefixExpected => "expected a prefix (value/len)"
  | prefixUnexpected => "prefix given for an exact key"
  | prefixTooLong length width => s!"prefix length {length} exceeds field width {width}"

/-- Why a program was not loaded, or a command not carried out. -/
inductive Error where
  | unreadable (path reason : String)
  | malformed
  | invalidProgram (defect : Defect)
  | unknownHeader (name : String)
  | unknownField (name : String)
  | unknownTable (name : String)
  | unknownAction (table action : String)
  | unknownEntry (table : String) (handle : Nat)
  | keyCount (table : String) (expected got : Nat)
  | badKey (table : String) (index : Nat) (fault : KeyFault)
  | unknownGroup (group : Nat)
  | duplicateGroup (group : Nat)
  | unknownNode (node : Nat)
  | alreadyAssociated (group node : Nat)
  | notAssociated (group node : Nat)
  | badCommand (line : String) (fault : CommandFault)
  deriving DecidableEq

def Error.message : Error → String
  | unreadable path reason => s!"failed to read program {path}: {reason}"
  | malformed => "invalid program description: not the JSON text of a program"
  | invalidProgram defect => s!"invalid program: {defect.message}"
  | unknownHeader name => s!"unknown header `{name}`"
  | unknownField name => s!"unknown field `{name}`"
  | unknownTable name => s!"unknown table `{name}`"
  | unknownAction table action => s!"action `{action}` is not allowed in table `{table}`"
  | unknownEntry table handle => s!"table `{table}` has no entry with handle {handle}"
  | keyCount table expected got => s!"table `{table}` expects {expected} key(s), got {got}"
  | badKey table index fault => s!"key {index} of table `{table}`: {fault.message}"
  | unknownGroup group => s!"multicast group {group} does not exist"
  | duplicateGroup group => s!"multicast group {group} already exists"
  | unknownNode node => s!"multicast node {node} does not exist"
  | alreadyAssociated group node =>
    s!"multicast node {node} is already associated with group {group}"
  | notAssociated group node => s!"multicast node {node} is not associated with group {group}"
  | badCommand line fault => s!"bad command `{line}`: {fault.message}"

/-- Why a pipeline was not built, or a frame not processed. -/
inductive PipelineError where
  | frameTooLarge (length limit : Nat)
  | missingRequiredField (name : String)
  | payloadOutOfRange (offset length : Nat)
  | control (error : Error)
  deriving DecidableEq

def PipelineError.message : PipelineError → String
  | frameTooLarge length limit => s!"packet length {length} exceeds maximum packet size {limit}"
  | missingRequiredField name => s!"program does not declare required field `{name}`"
  | payloadOutOfRange offset length =>
    s!"payload offset {offset} lies past the end of {length} bytes"
  | control error => error.message

end Switchyard
