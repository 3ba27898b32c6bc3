import StructuredLog.Json.Decode
import StructuredLog.Json.Fault

/-!
What can go wrong, by cause. Every error has a short code and a text for people.
-/

namespace StructuredLog

open Json (Kind ReadError DecodeError)

inductive SystemFault where
  | noEntry
  | entryExists
  | notDirectory
  | isDirectory
  | nameTooLong
  | networkUnreachable
  | zeroInPath
  | notUtf8
  | badAddress
  | badReceiver
  | stated (text : String)
deriving DecidableEq

def SystemFault.message : SystemFault → String
  | .noEntry => "No such file or directory (os error 2)"
  | .entryExists => "File exists (os error 17)"
  | .notDirectory => "Not a directory (os error 20)"
  | .isDirectory => "Is a directory (os error 21)"
  | .nameTooLong => "File name too long (os error 36)"
  | .networkUnreachable => "Network is unreachable (os error 101)"
  | .zeroInPath => "file name contained an unexpected NUL byte"
  | .notUtf8 => "stream did not contain valid UTF-8"
  | .badAddress => "invalid socket address"
  | .badReceiver => "invalid port value"
  | .stated text => text

inductive SourceFault where
  | badText (error : ReadError)
  | badSubstitution (error : ReadError)
  | unreadable (fault : SystemFault)
  | notObject (kind : Kind)
  | notArray (kind : Kind)
  | pathNotString (kind : Kind)
  | stated (text : String)

def SourceFault.message : SourceFault → String
  | .badText error =>
      s!"第 {error.position.line} 行第 {error.position.column} 列: {error.message}"
  | .badSubstitution error => s!"替换后的文本不是合法 JSON: {error.message}"
  | .unreadable fault => fault.message
  | .notObject kind => s!"顶层必须是对象, 实际是 {kind.name}"
  | .notArray kind => s!"应为数组, 实际是 {kind.name}"
  | .pathNotString kind => s!"文件路径必须是字符串, 实际是 {kind.name}"
  | .stated text => text

inductive TemplateFault where
  | notObject (template : String) (kind : Kind)
  | extraKey (template : String) (key : String)
  | varsNotObject (template : String) (kind : Kind)
  | expansionNotObject (template : String) (kind : Kind)
  | groupNotArray (group : String) (kind : Kind)
  | variablesNotObject (key : String) (kind : Kind)
  | selfReference (call : String)
  | tooManySubstitutions (limit : Nat)
  | stated (text : String)

def TemplateFault.message : TemplateFault → String
  | .notObject template kind => s!"'{template}' 的值必须是对象, 实际是 {kind.name}"
  | .extraKey template key => s!"'{template}' 含有多余的键 '{key}'"
  | .varsNotObject template kind => s!"'{template}' 的 __vars__ 必须是对象, 实际是 {kind.name}"
  | .expansionNotObject template kind => s!"'{template}' 的展开结果必须是对象, 实际是 {kind.name}"
  | .groupNotArray group kind => s!"'{group}' 已存在且不是数组 ({kind.name})"
  | .variablesNotObject key kind => s!"{key} 必须是对象, 实际是 {kind.name}"
  | .selfReference call => s!"变量 {call} 引用了自身"
  | .tooManySubstitutions limit => s!"变量替换超过 {limit} 次"
  | .stated text => text

inductive RangeFault where
  | notInteger (n : Json.Number)
  | badItem (kind : Kind)
  | badRange (kind : Kind)
  | stated (text : String)

def RangeFault.message : RangeFault → String
  | .notInteger n => s!"不是整数: {String.ofList n.text}"
  | .badItem kind => s!"范围元素必须是整数或数组, 实际是 {kind.name}"
  | .badRange kind => s!"__range__ 必须是数组或整数, 实际是 {kind.name}"
  | .stated text => text

inductive Error where
  | alreadyStarted (app : String)
  | notStarted
  | typeTableFull (max : Nat) (name : String)
  | typeExists (name : String)
  | unknownType (name : String)
  | instanceExists (name : String)
  | notOpenable (name : String)
  | openFailed (name : String) (reason : String)
  | unknownOption (name : String)
  | poolExhausted (capacity : Nat)
  | invalidHandle (handle : Nat)
  | formatMismatch (key : String) (format : String)
  | badSource (source : String) (fault : SourceFault)
  | missingTemplateKey (template : String) (key : String)
  | badTemplate (fault : TemplateFault)
  | badRange (fault : RangeFault)
  | system (fault : SystemFault)
  | json (error : DecodeError)
  | initFailed (reason : String)

namespace Error

def code : Error → String
  | .alreadyStarted _ => "LOG-001"
  | .notStarted => "LOG-002"
  | .typeTableFull _ _ => "LOG-003"
  | .unknownType _ => "LOG-004"
  | .typeExists _ | .instanceExists _ => "LOG-005"
  | .notOpenable _ | .openFailed _ _ => "LOG-006"
  | .unknownOption _ => "LOG-007"
  | .poolExhausted _ => "JSON-001"
  | .invalidHandle _ => "JSON-002"
  | .formatMismatch _ _ => "JSON-003"
  | .json _ => "JSON-004"
  | .badSource _ _ => "CONFIG-001"
  | .missingTemplateKey _ _ | .badTemplate _ => "CONFIG-002"
  | .badRange _ => "CONFIG-003"
  | .system _ => "IO-001"
  | .initFailed _ => "UNKNOWN"

def message : Error → String
  | .alreadyStarted app => s!"日志引擎已启动: '{app}'"
  | .notStarted => "日志引擎未启动"
  | .typeTableFull max name => s!"处理器类型表已满: 最多 {max} 个, 拒绝注册 '{name}'"
  | .typeExists name => s!"处理器类型已存在: '{name}'"
  | .unknownType name => s!"处理器类型未找到: '{name}'"
  | .instanceExists name => s!"处理器实例已存在: '{name}'"
  | .notOpenable name => s!"处理器类型 '{name}' 不支持按参数打开"
  | .openFailed name reason => s!"处理器打开失败: '{name}' - {reason}"
  | .unknownOption name => s!"未知的日志选项: '{name}'"
  | .poolExhausted capacity => s!"JSON 缓冲池已耗尽: 最多 {capacity} 个生成器"
  | .invalidHandle handle => s!"无效的 JSON 缓冲句柄: {handle}"
  | .formatMismatch key format => s!"格式说明符不匹配: key '{key}', format '{format}'"
  | .badSource source fault => s!"配置解析失败: {source} - {fault.message}"
  | .missingTemplateKey template key => s!"模板 '{template}' 缺少必需的键 '{key}'"
  | .badTemplate fault => s!"模板展开失败: {fault.message}"
  | .badRange fault => s!"无效的范围定义: {fault.message}"
  | .system fault => s!"IO 错误: {fault.message}"
  | .json error => s!"JSON 错误: {error.message}"
  | .initFailed reason => s!"初始化失败: {reason}"

end Error

end StructuredLog
