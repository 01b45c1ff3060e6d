import PacketGen.Config.Basic
import PacketGen.Text.Occurrence

/-!
# The container template

The packet that wraps a batch of others is not analysed but written from a template, in which
`$NAME` stands for the packet, `$ID_TYPE` for the type of the identifiers and `$ID` for the
packet's identifier.
-/

namespace PacketGen.Generated

/-- The built-in template. -/
def batchTemplate : String := String.join ([
  "type $NAME struct \x7b",
  "\tPayloads [][]byte",
  "\x7d",
  "",
  "// Pid implements Packet interface.",
  "func (i $NAME) Pid() $ID_TYPE \x7b return $ID \x7d",
  "",
  "// Read implements Packet interface.",
  "func (i *$NAME) Read(buf *buffer.Buffer) \x7b",
  "\ti.Payloads = make([][]byte, 0)",
  "\tpayload, err := util.DecodeDeflate(buf.Read(uint32(buf.ReadInt())))",
  "\tif err != nil \x7b",
  "\t\treturn",
  "\t\x7d",
  "\tb := buffer.FromBytes(payload)",
  "\tfor b.Require(4) \x7b",
  "\t\tsize := b.ReadInt()",
  "\t\ti.Payloads = append(i.Payloads, b.Read(size))",
  "\t\x7d",
  "\x7d",
  "",
  "// Write implements Packet interface.",
  "func (i $NAME) Write() *buffer.Buffer \x7b",
  "\tb := new(buffer.Buffer)",
  "\tfor _, payload := range i.Payloads \x7b",
  "\t\tb.WriteInt(uint32(len(payload)))",
  "\t\tb.Write(payload)",
  "\t\x7d",
  "\tbuf := new(buffer.Buffer)",
  "\tpayload := util.EncodeDeflate(b.Done())",
  "\tbuf.WriteInt(uint32(len(payload)))",
  "\tbuf.Write(payload)",
  "\treturn buf",
  "\x7d"].map (· ++ "\n"))

/-- The template with its placeholders filled in, longer ones first. -/
def substituted (template : List Char) (name : String) (t : IdType) : List Char :=
  let typed := Text.replaceAll "$ID_TYPE".toList t.name.toList template
  let identified := Text.replaceAll "$ID".toList (t.constant name).toList typed
  Text.replaceAll "$NAME".toList name.toList identified

/-- The code of the packet `name`, ended by a line feed and an empty line. -/
def renderTemplate (template name : String) (t : IdType) : String :=
  let code := substituted template.toList name t
  .ofList (if code.getLast? = some '\n' then code ++ ['\n'] else code ++ ['\n', '\n'])

end PacketGen.Generated
