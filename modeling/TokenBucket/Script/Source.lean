/-!
# The source of the bucket script

A remote store runs the bucket step as a script, so that no other command comes between its reading and
its writing. This is the text that is loaded there; `TokenBucket.Script.Run` says what it does.
-/

namespace TokenBucket

namespace Script

/-- The script line by line, beginning and ending with an empty one. -/
def lines : List String := [
  "",
  "local key = KEYS[1]",
  "local rate = tonumber(ARGV[1])",
  "local capacity = tonumber(ARGV[2])",
  "local now = tonumber(ARGV[3])",
  "local requested = tonumber(ARGV[4])",
  "local ttl_ms = tonumber(ARGV[5])",
  "",
  "local state = redis.call(\"HMGET\", key, \"tokens\", \"ts\")",
  "local tokens = tonumber(state[1])",
  "local last = tonumber(state[2])",
  "",
  "local function exact(n)",
  "    return string.format(\"%.17g\", n)",
  "end",
  "",
  "if tokens == nil or last == nil then",
  "    tokens = capacity",
  "    last = now",
  "end",
  "",
  "local elapsed = math.max(0, now - last) / 1000",
  "local refilled = math.min(capacity, tokens + elapsed * rate)",
  "",
  "if requested == 0 then",
  "    return \x7b1, exact(refilled)\x7d",
  "end",
  "",
  "local granted = 0",
  "if refilled >= requested then",
  "    granted = 1",
  "    refilled = refilled - requested",
  "end",
  "",
  "redis.call(\"HSET\", key, \"tokens\", exact(refilled), \"ts\", string.format(\"%d\", now))",
  "redis.call(\"PEXPIRE\", key, ttl_ms)",
  "",
  "return \x7bgranted, exact(refilled)\x7d",
  ""
]

/-- The text of the script. -/
def source : String := String.intercalate "\n" lines

end Script

end TokenBucket
