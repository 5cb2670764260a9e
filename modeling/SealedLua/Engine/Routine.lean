/-!
# Routines in the script language

Two chunks that the engine runs itself.  One renders a value as a chunk that
rebuilds it; it runs among the script's own globals.  The other takes away what
a script must not have: files, and chunks that are not text.
-/

namespace SealedLua.Routine

/-- The text of lines that all end with a line feed. -/
def text (lines : List String) : String := String.join (lines.map (· ++ "\n"))

def dump : String := text
  ["-- Renders one value as Lua source that rebuilds it when run as a chunk.",
   "-- Output is always ASCII: string bytes outside printable ASCII are written",
   "-- as decimal escapes.",
   "",
   "local function quote(text)",
   "  return '\"' .. string.gsub(text, '[%c\"\\\\\\128-\\255]', function(c)",
   "    return string.format(\"\\\\%03d\", string.byte(c))",
   "  end) .. '\"'",
   "end",
   "",
   "local function dump(value, visiting)",
   "  local kind = type(value)",
   "  if kind == \"nil\" or kind == \"boolean\" then",
   "    return tostring(value)",
   "  elseif kind == \"number\" then",
   "    return string.format(\"%q\", value)",
   "  elseif kind == \"string\" then",
   "    return quote(value)",
   "  elseif kind == \"table\" then",
   "    if visiting[value] then",
   "      error(\"cannot dump a table with cycles\", 0)",
   "    end",
   "    visiting[value] = true",
   "    local entries = \x7b\x7d",
   "    for key, item in pairs(value) do",
   "      entries[#entries + 1] = \"[\" .. dump(key, visiting) .. \"]=\" .. dump(item, visiting)",
   "    end",
   "    visiting[value] = nil",
   "    table.sort(entries)",
   "    return \"\x7b\" .. table.concat(entries, \",\") .. \"\x7d\"",
   "  end",
   "  error(\"cannot dump a value of type \" .. kind, 0)",
   "end",
   "",
   "return \"return \" .. dump(..., \x7b\x7d)"]

def sandbox : String := text
  ["-- Runs once in every fresh state, before any script.  Removes the base",
   "-- library's file access and binary chunk support.",
   "",
   "local base_load, select = load, select",
   "",
   "dofile = nil",
   "loadfile = nil",
   "string.dump = nil",
   "",
   "function load(chunk, name, _, ...)",
   "  if select(\"#\", ...) > 0 then",
   "    return base_load(chunk, name, \"t\", ...)",
   "  end",
   "  return base_load(chunk, name, \"t\")",
   "end"]

end SealedLua.Routine
