/-
PropSchema.Artifact.Support — the fixed part of a generated source file.

The accessors of a source file call a handful of helper templates: parsers and
formatters for each element type and for lists, and the function that reads a
property from the system. They are the same text in every file, given here line
by line; the writers of booleans as digits are added only where some property is
stored that way.
-/

namespace PropSchema.Artifact

/-- Tells list types from single ones at compile time. -/
def listTrait : List String :=
  [
    "template <typename T> constexpr bool is_vector = false;",
    "",
    "template <typename T> constexpr bool is_vector<std::vector<T>> = true;"]

/-- Parses booleans: the two spellings of each, in any case. -/
def booleanParser : List String :=
  [
    "template <> [[maybe_unused]] std::optional<bool> DoParse(const char* str) \x7b",
    "    static constexpr const char* kYes[] = \x7b\"1\", \"true\"\x7d;",
    "    static constexpr const char* kNo[] = \x7b\"0\", \"false\"\x7d;",
    "",
    "    for (const char* yes : kYes) \x7b",
    "        if (strcasecmp(yes, str) == 0) return std::make_optional(true);",
    "    \x7d",
    "",
    "    for (const char* no : kNo) \x7b",
    "        if (strcasecmp(no, str) == 0) return std::make_optional(false);",
    "    \x7d",
    "",
    "    return std::nullopt;",
    "\x7d"]

/-- Parses integers of both widths. -/
def integerParsers : List String :=
  [
    "template <> [[maybe_unused]] std::optional<std::int32_t> DoParse(const char* str) \x7b",
    "    std::int32_t ret;",
    "    bool success = android::base::ParseInt(str, &ret);",
    "    return success ? std::make_optional(ret) : std::nullopt;",
    "\x7d",
    "",
    "template <> [[maybe_unused]] std::optional<std::int64_t> DoParse(const char* str) \x7b",
    "    std::int64_t ret;",
    "    bool success = android::base::ParseInt(str, &ret);",
    "    return success ? std::make_optional(ret) : std::nullopt;",
    "\x7d"]

/-- Parses floating-point numbers that the text consists of, range errors excluded. -/
def doubleParser : List String :=
  [
    "template <> [[maybe_unused]] std::optional<double> DoParse(const char* str) \x7b",
    "    int old_errno = errno;",
    "    errno = 0;",
    "    char* end;",
    "    double ret = std::strtod(str, &end);",
    "    if (errno != 0) \x7b",
    "        return std::nullopt;",
    "    \x7d",
    "    if (str == end || *end != '\\0') \x7b",
    "        errno = old_errno;",
    "        return std::nullopt;",
    "    \x7d",
    "    errno = old_errno;",
    "    return std::make_optional(ret);",
    "\x7d"]

/-- Takes any text as it is. -/
def stringParser : List String :=
  [
    "template <> [[maybe_unused]] std::optional<std::string> DoParse(const char* str) \x7b",
    "    return std::make_optional(str);",
    "\x7d"]

/-- Parses lists element by element, and dispatches between lists and single values. -/
def listParser : List String :=
  [
    "template <typename Vec> [[maybe_unused]] std::optional<Vec> DoParseList(const char* str) \x7b",
    "    Vec ret;",
    "    for (auto&& element : android::base::Split(str, \",\")) \x7b",
    "        auto parsed = DoParse<typename Vec::value_type>(element.c_str());",
    "        if (!parsed) \x7b",
    "            return std::nullopt;",
    "        \x7d",
    "        ret.emplace_back(std::move(*parsed));",
    "    \x7d",
    "    return std::make_optional(std::move(ret));",
    "\x7d",
    "",
    "template <typename T> inline std::optional<T> TryParse(const char* str) \x7b",
    "    if constexpr(is_vector<T>) \x7b",
    "        return DoParseList<T>(str);",
    "    \x7d else \x7b",
    "        return DoParse<T>(str);",
    "    \x7d",
    "\x7d"]

/-- Formats single values. -/
def scalarFormatters : List String :=
  [
    "[[maybe_unused]] std::string FormatValue(std::int32_t value) \x7b",
    "    return std::to_string(value);",
    "\x7d",
    "",
    "[[maybe_unused]] std::string FormatValue(std::int64_t value) \x7b",
    "    return std::to_string(value);",
    "\x7d",
    "",
    "[[maybe_unused]] std::string FormatValue(double value) \x7b",
    "    return android::base::StringPrintf(\"%.*g\", std::numeric_limits<double>::max_digits10, value);",
    "\x7d",
    "",
    "[[maybe_unused]] std::string FormatValue(bool value) \x7b",
    "    return value ? \"true\" : \"false\";",
    "\x7d"]

/-- Formats lists, a comma between consecutive elements. -/
def listFormatter : List String :=
  [
    "template <typename T>",
    "[[maybe_unused]] std::string FormatValue(const std::vector<T>& value) \x7b",
    "    if (value.empty()) return \"\";",
    "",
    "    std::string ret;",
    "",
    "    for (auto it = value.begin(); it != value.end(); ++it) \x7b",
    "        if (it != value.begin()) ret.push_back(',');",
    "        const auto& element = *it;",
    "        if constexpr(std::is_same_v<T, std::string>) \x7b",
    "            ret += element;",
    "        \x7d else \x7b",
    "            ret += FormatValue(element);",
    "        \x7d",
    "    \x7d",
    "",
    "    return ret;",
    "\x7d"]

/-- Reads a property from the system. -/
def reader : List String :=
  [
    "template <typename T>",
    "std::optional<T> GetProp(const char* key) \x7b",
    "    auto pi = __system_property_find(key);",
    "    if (pi == nullptr) return std::nullopt;",
    "    std::optional<T> ret;",
    "    __system_property_read_callback(pi, [](void* cookie, const char*, const char* value, std::uint32_t) \x7b",
    "        *static_cast<std::optional<T>*>(cookie) = TryParse<T>(value);",
    "    \x7d, &ret);",
    "    return ret;",
    "\x7d"]

/-- The parts of the support code, in order. -/
def supportParts : List (List String) :=
  [listTrait, booleanParser, integerParsers, doubleParser, stringParser, listParser,
    scalarFormatters, listFormatter, reader]

/-- The support code that every source file contains: its parts, separated by
blank lines. -/
def supportCode : List String :=
  [""].intercalate supportParts

/-- The writers of booleans as digits. -/
def digitWriters : List String :=
  [
    "[[maybe_unused]] std::string FormatIntegerAsBool(bool value) \x7b",
    "    return value ? \"1\" : \"0\";",
    "\x7d",
    "",
    "[[maybe_unused]] std::string FormatIntegerAsBool(const std::vector<bool>& value) \x7b",
    "    std::string ret;",
    "",
    "    for (auto it = value.begin(); it != value.end(); ++it) \x7b",
    "        if (it != value.begin()) ret.push_back(',');",
    "        ret += *it ? \"1\" : \"0\";",
    "    \x7d",
    "",
    "    return ret;",
    "\x7d"]

end PropSchema.Artifact
