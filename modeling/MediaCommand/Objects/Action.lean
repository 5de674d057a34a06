/-
The calls that make, connect and change objects.

An action is such a call with everything that the caller gives to it.  All of them together are
what can happen to the objects of a session, so whatever every action keeps holds in every
session.  Only lists among the options may grow besides (`Objects/Grow`), which touches nothing
else.
-/
import MediaCommand.Objects.Copy
import MediaCommand.Objects.Map
import MediaCommand.Objects.Sum

namespace MediaCommand

/-- A call that makes, connects or changes objects. -/
inductive Action
  | newFilter (name options input output : Value)
  | newChain (filters : Value)
  | add (a b : Value)
  | wrap (v : Value)
  | newGraph (chains : Value)
  | newInput (url options : Value)
  | newOutput (url options : Value)
  | newCommand (options : Value) (executable : Option String)
  | copy (v : Value)
  | appendNodes (chain : ChainId) (nodes : List Value)
  | prependNodes (chain : ChainId) (nodes : List Value)
  | addInputs (chain : ChainId) (inputs : Value)
  | outputPad (chain : ChainId) (selector : Value)
  | fromFilterOutput (chain selector : Value)
  | markMapped (chain : ChainId) (pad : Value)
  | appendChain (graph : GraphId) (chain : Value)
  | extendGraph (graph : GraphId) (chains : Value)
  | addInputOptions (input : InputId) (options : Value)
  | addOutputOptions (output : OutputId) (options : Value)
  | inputStream (input : InputId) (track : Value)
  | fromInput (input track : Value)
  | addInput (command : CommandId) (input : Value)
  | addGraph (command : CommandId) (graph onOutput : Value)
  | addOutput (command : CommandId) (output mappings : Value)
  | map (command : CommandId) (output source index : Value)
  | mappingValue (command : CommandId) (source index : Value)

namespace Objects

/-- The objects after a call that makes an object, and that object. -/
def made {α : Type} (toObject : α → Object) (r : Except Error (Objects × α)) :
    Except Error (Objects × Value) :=
  r.map fun (o, id) => (o, .object (toObject id))

/-- The objects after a call that makes nothing. -/
def changed (r : Except Error Objects) : Except Error (Objects × Value) := r.map (·, .null)

/-- Makes the specifier the answer of a call. -/
def madeSpecifier (r : Except Error (Objects × Specifier)) : Except Error (Objects × Value) :=
  made (fun s => .specifier s.id) r

/-- Carries out an action. The answer is the object that was made or the value that was asked
for. -/
def perform (o : Objects) (a : Action) : Outcome Value :=
  match a with
  | .newFilter name options input output =>
    .ofExcept o (made .filter (o.newFilter name options input output))
  | .newChain filters => .ofExcept o (made .chain (o.newChain filters))
  | .add a b => .ofExcept o (o.add a b)
  | .wrap v => .ofExcept o (made .chain (o.wrap .filterOrChain v))
  | .newGraph chains => (o.newGraph chains).map fun id => .object (.graph id)
  | .newInput url options => .ofExcept o (made .input (o.newInput url options))
  | .newOutput url options => .ofExcept o (made .output (o.newOutput url options))
  | .newCommand options executable =>
    .ofExcept o (made .command (o.newCommand options executable))
  | .copy v => .ofExcept o (o.copy v)
  | .appendNodes chain nodes => .ofExcept o (changed (o.appendNodes chain nodes))
  | .prependNodes chain nodes => (o.prependNodes chain nodes).map fun _ => .null
  | .addInputs chain inputs => (o.addInputs chain inputs).map fun _ => .null
  | .outputPad chain selector => .ofExcept o (madeSpecifier (o.outputPad chain selector))
  | .fromFilterOutput chain selector =>
    .ofExcept o (madeSpecifier (o.fromFilterOutput chain selector))
  | .markMapped chain pad => .ofExcept o (changed (o.markMapped chain pad))
  | .appendChain graph chain => .ofExcept o (made .chain (o.appendToGraph graph chain))
  | .extendGraph graph chains =>
    match o.elements chains with
    | .ok items => (o.extendGraph graph items).map fun _ => .null
    | .error e => .ofExcept o (.error e)
  | .addInputOptions input options => .ofExcept o (changed (o.addInputOptions input options))
  | .addOutputOptions output options => .ofExcept o (changed (o.addOutputOptions output options))
  | .inputStream input track => .ofExcept o (madeSpecifier (o.inputStream input track))
  | .fromInput input track => .ofExcept o (madeSpecifier (o.fromInput input track))
  | .addInput command input =>
    .ofExcept o ((o.commandAddInput command input).map fun (o, n) => (o, Value.int n))
  | .addGraph command graph onOutput =>
    .ofExcept o (made .graph (o.commandAddGraph command graph onOutput))
  | .addOutput command output mappings =>
    (o.commandAddOutput command output mappings).map fun id => .object (.output id)
  | .map command output source index =>
    (o.commandMap command output source index).map fun (n : Nat) => Value.int n
  | .mappingValue command source index => (o.mappingValue command source index).map .text

end Objects

end MediaCommand
