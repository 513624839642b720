import ScriptCase.Keyword.Table

/-!
# The bundled keywords

The keywords that are known without any configuration.
-/

namespace ScriptCase
namespace Table

/-- The bundled words of a category. -/
def bundledWords : Category → List String
  | .assignment => [
    "defname", "name", "id", "type", "value", "weight", "resources", "skillmake", "tevents", "events", "category",
    "subsection", "description", "dupelist", "dupeitem", "layer", "flip", "color", "dye", "brain", "can", "dam",
    "armor", "speed", "reqstr", "skill", "twohands", "tdata1", "tdata2", "tdata3", "tdata4", "morex", "morey",
    "morez", "more1", "more2", "amount", "attr", "hits", "maxhits", "str", "dex", "int", "karma", "fame", "npc",
    "title", "icon", "sound", "anim", "tspeech", "timer", "link", "cont", "p"]
  | .scope => [
    "tag", "tag0", "ctag", "ctag0", "var", "var0", "local", "def", "def0"]
  | .control => [
    "begin", "end", "if", "elif", "elseif", "else", "endif", "for", "endfor", "while", "endwhile", "dorand",
    "doswitch", "enddo", "return", "forchars", "forclients", "forcont", "forcontid", "forconttype", "foritems",
    "forobjs", "forplayers", "forinstances", "fortimerf", "forcharlayer", "forcharmemorytype"]
  | .command => [
    "say", "emote", "sysmessage", "dialog", "newitem", "equip", "unequip", "go", "face", "follow", "speak", "bounce",
    "consume", "remove"]

/-- The bundled table. -/
def bundled : Table where
  tokens c := (bundledWords c).map String.toList
  source := some "<bundled keywords.toml>"
  sound := by decide +kernel

end Table
end ScriptCase
